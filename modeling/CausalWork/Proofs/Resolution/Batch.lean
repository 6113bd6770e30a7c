import CausalWork.Proofs.Resolution.Agreement
import CausalWork.Proofs.Resolution.Flight

namespace CausalWork

def Sought.resolve (n : Network) : Sought → StateM Memo (Except Failure Artifact)
  | .reference r => n.resolveReference r
  | .foreign kind id => n.resolveForeign kind id

theorem Network.candidates_subset (n : Network) (repo : Option String) :
    n.candidates repo ⊆ n.candidates none := by
  cases repo with
  | none => exact List.Subset.refl _
  | some repo => exact List.filter_subset_self _

namespace Flight

/-- A resolver that has these outcomes when a batch of lookups begins. -/
def ofBatch (m : Memo) (all : List Sought) : Flight :=
  ⟨fun q => (m.outcomes.lookup q).elim .idle .full, all.map fun s => ⟨s, none⟩, []⟩

inductive Recounts (n : Network) (m : Memo) (q : Question) : Cell → Prop
  | idle (h : m.outcomes.lookup q = none) : Recounts n m q .idle
  | busy {w : Wanted} {reasons : List String} {rest : List (Nat × Remote)} {called : Bool}
      (hq : w.question = q) (hrest : rest ⊆ n.candidates none)
      (h : m.outcomes.lookup q = some (Network.survey n.deadline q w.pin reasons [] rest).1) :
      Recounts n m q (.busy ⟨w, reasons, rest⟩ called)
  | full {outcome : Outcome} (h : m.outcomes.lookup q = some outcome) :
      Recounts n m q (.full outcome)

/-- A flight over stores that stand still, and the memo of a request that made the same lookups one
after another. -/
structure Matches (n : Network) (f : Flight) (m : Memo) : Prop where
  cells : ∀ q, Recounts n m q (f.cells q)
  results : ∀ t ∈ f.callers, ∀ result, t.result = some result →
    ∃ outcome, m.outcomes.lookup t.question = some outcome ∧ result = t.sought.settle outcome

def entered (f : Flight) : Act → List Wanted
  | .enter i => f.callers[i]?.toList.map fun t => t.sought.wanted
  | .spawn _ | .call _ | .hear .. | .take _ => []

def order (n : Network) (f : Flight) : List Act → List Wanted
  | [] => []
  | act :: acts => f.entered act ++ order n (f.step n act) acts

def learn (n : Network) (m : Memo) (ws : List Wanted) : Memo :=
  (ws.map (Lookup.mk n)).foldl Lookup.learn m

variable {n : Network} {f : Flight} {m : Memo} {q : Question} {w : Wanted}

theorem lookup_learn (n : Network) (m : Memo) (ws : List Wanted) (q : Question) :
    (learn n m ws).outcomes.lookup q =
      (m.outcomes.lookup q).or ((ws.find? fun w => w.question = q).map n.outcome) := by
  rw [learn, Memo.lookup_foldl_learn, List.find?_map, Option.map_map]
  rfl

theorem matches_ofBatch (n : Network) (m : Memo) (all : List Sought) :
    (ofBatch m all).Matches n m where
  cells := by
    intro q
    change Recounts n m q ((m.outcomes.lookup q).elim .idle .full)
    cases h : m.outcomes.lookup q with
    | none => exact .idle h
    | some outcome => exact .full h
  results := by
    intro t ht result hr
    obtain ⟨s, -, rfl⟩ := List.mem_map.1 ht
    cases hr

theorem recounts_next {reasons : List String} {rest : List (Nat × Remote)} (hq : w.question = q)
    (hrest : rest ⊆ n.candidates none)
    (h : m.outcomes.lookup q = some (Network.survey n.deadline q w.pin reasons [] rest).1) :
    Recounts n m q (Errand.next ⟨w, reasons, rest⟩) := by
  cases rest with
  | nil => exact .full h
  | cons r rest => exact .busy hq hrest h

theorem recounts_embark (h : m.outcomes.lookup w.question = some (n.outcome w)) :
    Recounts n m w.question (n.embark w) := by
  rw [Network.outcome, Network.inquire] at h
  rw [Network.embark]
  cases hc : n.candidates w.question.repo with
  | nil => exact .full h
  | cons r rest =>
      rw [hc] at h
      refine .busy rfl ?_ h
      rw [← hc]
      exact n.candidates_subset _

theorem recounts_resume {reasons : List String} {place : Nat} {r : Remote}
    {rest : List (Nat × Remote)} {called : Bool}
    (h : Recounts n m q (.busy ⟨w, reasons, (place, r) :: rest⟩ called)) :
    Recounts n m q (n.resume w reasons r rest) := by
  cases h with
  | busy hq hrest h =>
      subst hq
      rw [Network.survey] at h
      rw [Network.resume]
      have hask : r.ask n.deadline w.question.kind w.question.id = r.ask n.deadline w.kind w.id := rfl
      rw [hask] at h
      cases hheed : r.heed w.pin reasons (r.ask n.deadline w.kind w.id) with
      | inl outcome =>
          rw [hheed] at h
          exact .full h
      | inr reasons' =>
          rw [hheed] at h
          dsimp only at h
          rw [Network.survey_fst, ← Network.survey_fst _ _ _ _ []] at h
          exact recounts_next rfl (List.subset_of_cons_subset hrest) h

theorem Recounts.call {e : Errand} (h : Recounts n m q (.busy e false)) :
    Recounts n m q (.busy e true) := by
  cases h with
  | busy hq hrest h => exact .busy hq hrest h

theorem Recounts.mem {reasons : List String} {r : Nat × Remote} {rest : List (Nat × Remote)}
    {called : Bool} (h : Recounts n m q (.busy ⟨w, reasons, r :: rest⟩ called)) :
    r ∈ n.candidates none := by
  cases h with
  | busy hq hrest h => exact hrest List.mem_cons_self

theorem Matches.fill (h : f.Matches n m) {c : Cell} (hc : Recounts n m q c) :
    (f.fill q c).Matches n m where
  cells := by
    intro q'
    by_cases hq : q' = q
    · rw [hq, fill_cells_self]
      exact hc
    · rw [fill_cells_of_ne f c hq]
      exact h.cells q'
  results := h.results

theorem Recounts.of_lookup {m' : Memo} {c : Cell} (h : Recounts n m q c)
    (hsame : m'.outcomes.lookup q = m.outcomes.lookup q) : Recounts n m' q c := by
  cases h with
  | idle h => exact .idle (hsame.trans h)
  | busy hq hrest h => exact .busy hq hrest (hsame.trans h)
  | full h => exact .full (hsame.trans h)

theorem lookup_learn_of_some {outcome : Outcome} (h : m.outcomes.lookup q = some outcome)
    (ws : List Wanted) : (learn n m ws).outcomes.lookup q = some outcome := by
  rw [lookup_learn, h]
  rfl

theorem lookup_learn_singleton (n : Network) (m : Memo) (w : Wanted) (q : Question) :
    (learn n m [w]).outcomes.lookup q =
      (m.outcomes.lookup q).or (if w.question = q then some (n.outcome w) else none) := by
  rw [lookup_learn, List.find?_singleton]
  split_ifs <;> simp_all

theorem Recounts.exists_lookup {c : Cell} (h : Recounts n m q c) (hc : c ≠ .idle) :
    ∃ outcome, m.outcomes.lookup q = some outcome := by
  cases h with
  | idle h => exact absurd rfl hc
  | busy hq hrest h => exact ⟨_, h⟩
  | full h => exact ⟨_, h⟩

theorem Matches.learned (h : f.Matches n m) {c : Cell}
    (hc : Recounts n (learn n m [w]) w.question c) :
    (f.fill w.question c).Matches n (learn n m [w]) where
  cells := by
    intro q
    by_cases hq : q = w.question
    · rw [hq, fill_cells_self]
      exact hc
    · rw [fill_cells_of_ne f c hq]
      refine (h.cells q).of_lookup ?_
      rw [lookup_learn_singleton, if_neg fun he => hq he.symm, Option.or_none]
  results := by
    intro t ht result hr
    obtain ⟨outcome, ho, hs⟩ := h.results t ht result hr
    exact ⟨outcome, lookup_learn_of_some ho _, hs⟩

/-- A lookup that comes to its cell adds to the memo what it will be told, if that is not known. -/
theorem Matches.enter (h : f.Matches n m) {i : Nat} {t : Caller} (ht : f.callers[i]? = some t) :
    (f.step n (.enter i)).Matches n (learn n m [t.sought.wanted]) := by
  have hcell := h.cells t.question
  rw [Flight.step, ht]
  dsimp only
  split
  next hidle =>
    rw [hidle] at hcell
    cases hcell with
    | idle hnone =>
        refine h.learned (recounts_embark ?_)
        rw [lookup_learn_singleton, if_pos rfl]
        exact congrArg (Option.or · (some (n.outcome t.sought.wanted))) hnone
  next hbusy =>
    obtain ⟨outcome, ho⟩ := hcell.exists_lookup hbusy
    rw [← f.fill_self t.question]
    exact h.learned (hcell.of_lookup (ho ▸ lookup_learn_of_some ho _))

theorem Matches.call (h : f.Matches n m) {e : Errand} {place : Nat}
    (hc : f.cells q = .busy e false) :
    Matches n { f.fill q (.busy e true) with asked := (q, place) :: f.asked } m := by
  have hcell := h.cells q
  rw [hc] at hcell
  have hf := h.fill hcell.call
  exact ⟨hf.cells, hf.results⟩

theorem Matches.hear (h : f.Matches n m) {reasons : List String} {place : Nat} {r : Remote}
    {rest : List (Nat × Remote)} (hc : f.cells q = .busy ⟨w, reasons, (place, r) :: rest⟩ true) :
    (f.fill q (n.resume w reasons r rest)).Matches n m := by
  have hcell := h.cells q
  rw [hc] at hcell
  exact h.fill (recounts_resume hcell)

theorem Matches.take (h : f.Matches n m) (i : Nat) {t : Caller} {outcome : Outcome}
    (hfull : f.cells t.question = .full outcome) :
    Matches n { f with
      callers := f.callers.set i ⟨t.sought, some (t.sought.settle outcome)⟩ } m := by
  have hcell := h.cells t.question
  rw [hfull] at hcell
  cases hcell with
  | full ho =>
      refine ⟨h.cells, fun t' ht' result hr => ?_⟩
      rcases mem_take ht' hr with ht' | ⟨hq, hsettle⟩
      · exact h.results t' ht' result hr
      · exact ⟨outcome, hq ▸ ho, hsettle⟩

section

variable {stores : Nat → Store} (hstores : ∀ r ∈ n.candidates none, stores r.1 = r.2.store)

include hstores

theorem Matches.step (h : f.Matches n m) {act : Act} (ha : act.Settles stores) :
    (f.step n act).Matches n (learn n m (f.entered act)) := by
  cases act with
  | spawn all => exact absurd ha id
  | enter i =>
      rw [entered]
      cases ht : f.callers[i]? with
      | none =>
          rw [Flight.step, ht]
          exact h
      | some t => exact h.enter ht
  | call q =>
      rw [Flight.step]
      split
      next hc => exact h.call hc
      next => exact h
  | hear q place store =>
      rw [Flight.step]
      split
      next w reasons next r rest hc =>
        split_ifs with hplace
        · subst hplace
          have hcell := h.cells q
          rw [hc] at hcell
          obtain rfl : store = r.store := ha.trans (hstores (next, r) hcell.mem)
          exact h.hear hc
        · exact h
      next => exact h
  | take i =>
      rw [Flight.step]
      split
      · exact h
      next t ht =>
        split
        next hfull => exact h.take i hfull
        next => exact h

theorem Matches.foldl (h : f.Matches n m) {acts : List Act} (ha : ∀ act ∈ acts, act.Settles stores) :
    (acts.foldl (Flight.step n) f).Matches n (learn n m (order n f acts)) := by
  induction acts generalizing f m with
  | nil => exact h
  | cons act acts ih =>
      have hnext := ih (h.step hstores (ha act List.mem_cons_self))
        fun act' ha' => ha act' (List.mem_cons_of_mem _ ha')
      rw [learn, order, List.map_append, List.foldl_append]
      exact hnext

end

theorem mem_entered {act : Act} (h : w ∈ f.entered act) :
    w ∈ (f.callers.map Caller.sought).map Sought.wanted := by
  cases act with
  | enter i =>
      obtain ⟨t, ht, rfl⟩ := List.mem_map.1 h
      have ht := List.mem_of_getElem? (Option.mem_toList.1 ht)
      exact List.mem_map_of_mem (List.mem_map_of_mem ht)
  | spawn | call | hear | take => cases h

theorem mem_order {acts : List Act} (ha : ∀ act ∈ acts, act.spawned = []) (h : w ∈ order n f acts) :
    w ∈ (f.callers.map Caller.sought).map Sought.wanted := by
  induction acts generalizing f with
  | nil => cases h
  | cons act acts ih =>
      rcases List.mem_append.1 h with h | h
      · exact mem_entered h
      · have hrest := ih (fun act' ha' => ha act' (List.mem_cons_of_mem _ ha')) h
        rwa [soughts_step, ha act List.mem_cons_self, List.append_nil] at hrest

theorem lookup_learn_congr {all order : List Wanted} (hinj : Set.InjOn Wanted.question {w | w ∈ all})
    (horder : order ⊆ all) (hw : w ∈ all) {outcome : Outcome}
    (h : (learn n m order).outcomes.lookup w.question = some outcome) :
    (learn n m all).outcomes.lookup w.question = some outcome := by
  rw [lookup_learn] at h ⊢
  cases hm : m.outcomes.lookup w.question with
  | some told =>
      rw [hm] at h
      exact h
  | none =>
      rw [hm, Option.none_or, Option.map_eq_some_iff] at h
      obtain ⟨first, hfirst, rfl⟩ := h
      have hq : first.question = w.question := by simpa using List.find?_some hfirst
      have hsome : (all.find? fun w' => w'.question = w.question).isSome :=
        List.find?_isSome.2 ⟨w, hw, decide_eq_true rfl⟩
      obtain ⟨first', hfirst'⟩ := Option.isSome_iff_exists.1 hsome
      have hq' : first'.question = w.question := by simpa using List.find?_some hfirst'
      have hsame : first' = first := hinj (List.mem_of_find?_eq_some hfirst')
        (horder (List.mem_of_find?_eq_some hfirst)) (hq'.trans hq.symm)
      rw [hfirst', hsame]
      rfl

end Flight

namespace Network

variable {n : Network} {m : Memo} {all : List Sought} {stores : Nat → Store} {acts : List Act}

theorem follows_resolve (n : Network) (s : Sought) :
    Follows [⟨n, s.wanted⟩] (fun tell => s.settle (tell s.wanted.question)) (s.resolve n) := by
  cases s with
  | reference r => exact n.follows_resolveReference r
  | foreign kind id => exact n.follows_resolveForeign kind id

theorem mapM_resolve (n : Network) (m : Memo) (all : List Sought) :
    (all.mapM (Sought.resolve n) m).1 = all.map fun s =>
      s.settle ((Flight.learn n m (all.map Sought.wanted)).tell s.wanted.question) := by
  have h := Follows.mapM fun s (_ : s ∈ all) => n.follows_resolve s
  rw [← List.map_eq_flatMap] at h
  rw [h.replies m [], h.learns, Flight.learn, List.map_map]
  rfl

/-- While the stores stand still, a batch of lookups that all return, in whatever order they came to
their cells and the remotes answered, is told what it would be told one after another, if those for
one question want the same. -/
theorem batch_side_by_side (hstores : ∀ r ∈ n.candidates none, stores r.1 = r.2.store)
    (hinj : Set.InjOn Wanted.question {w | w ∈ all.map Sought.wanted})
    (hacts : ∀ act ∈ acts, act.Settles stores)
    (hdone : ∀ t ∈ (acts.foldl (Flight.step n) (.ofBatch m all)).callers, t.result.isSome) :
    (acts.foldl (Flight.step n) (.ofBatch m all)).callers.map Caller.result =
      (all.mapM (Sought.resolve n) m).1.map some := by
  have hspawned : ∀ act ∈ acts, act.spawned = [] := fun act ha => (hacts act ha).spawned_eq
  have hbatch : (Flight.ofBatch m all).callers.map Caller.sought = all :=
    Flight.map_sought_fresh all
  have hsoughts := Flight.soughts_foldl n (.ofBatch m all) acts
  rw [hbatch, List.flatMap_eq_nil_iff.2 hspawned, List.append_nil] at hsoughts
  have hmatches := (Flight.matches_ofBatch n m all).foldl hstores hacts
  rw [mapM_resolve, List.map_map]
  nth_rewrite 3 [← hsoughts]
  rw [List.map_map]
  refine List.map_congr_left fun t ht => ?_
  have hmem : t.sought ∈ all := hsoughts ▸ List.mem_map_of_mem ht
  obtain ⟨result, hr⟩ := Option.isSome_iff_exists.1 (hdone t ht)
  obtain ⟨outcome, ho, hs⟩ := hmatches.results t ht result hr
  have htold := Flight.lookup_learn_congr hinj (fun w hw => hbatch ▸ Flight.mem_order hspawned hw)
    (List.mem_map_of_mem hmem) ho
  rw [hr, hs, Function.comp_apply, Function.comp_apply, Memo.tell, htold]
  rfl

theorem resolveReferences_side_by_side {refs : List Reference}
    (hagree : ∀ r ∈ refs, ∀ r' ∈ refs, r.question = r'.question → r.locator = r'.locator)
    (hstores : ∀ r ∈ n.candidates none, stores r.1 = r.2.store)
    (hacts : ∀ act ∈ acts, act.Settles stores)
    (hdone : ∀ t ∈ (acts.foldl (Flight.step n) (.ofBatch m (refs.map .reference))).callers,
      t.result.isSome) :
    ∃ told, (acts.foldl (Flight.step n) (.ofBatch m (refs.map .reference))).callers.map
        Caller.result = told.map some ∧ (n.resolveReferences refs m).1 = refs.zip told := by
  refine ⟨_, batch_side_by_side hstores ((injOn_asking hagree).mono ?_) hacts hdone, ?_⟩
  · intro w hw
    obtain ⟨s, hs, rfl⟩ := List.mem_map.1 hw
    obtain ⟨r, hr, rfl⟩ := List.mem_map.1 hs
    exact .inr ⟨r, hr, rfl⟩
  · rw [List.mapM_map]
    exact mapM_pair_apply _ refs m

theorem resolveIds_side_by_side {kind : Kind} {ids : List String}
    (hstores : ∀ r ∈ n.candidates none, stores r.1 = r.2.store)
    (hacts : ∀ act ∈ acts, act.Settles stores)
    (hdone : ∀ t ∈ (acts.foldl (Flight.step n) (.ofBatch m (ids.map (.foreign kind)))).callers,
      t.result.isSome) :
    ∃ told, (acts.foldl (Flight.step n) (.ofBatch m (ids.map (.foreign kind)))).callers.map
        Caller.result = told.map some ∧ (n.resolveIds kind ids m).1 = ids.zip told := by
  have hinj : Set.InjOn Wanted.question (asking []) := injOn_asking (by simp)
  refine ⟨_, batch_side_by_side hstores (hinj.mono ?_) hacts hdone, ?_⟩
  · intro w hw
    obtain ⟨s, hs, rfl⟩ := List.mem_map.1 hw
    obtain ⟨id, -, rfl⟩ := List.mem_map.1 hs
    exact .inl rfl
  · rw [List.mapM_map]
    exact mapM_pair_apply _ ids m

end Network

end CausalWork
