import CausalWork.Proofs.Resolution.Errand

namespace CausalWork

def Act.spawned : Act → List Sought
  | .spawn all => all
  | .enter _ | .call _ | .hear .. | .take _ => []

namespace Flight

variable {n : Network} {acts : List Act} {f : Flight}

def places (f : Flight) (q : Question) : List Nat :=
  ((f.asked.filter fun c => c.1 = q).map Prod.snd).reverse

theorem places_cons_self (f : Flight) (q : Question) (place : Nat) :
    places { f with asked := (q, place) :: f.asked } q = f.places q ++ [place] := by
  simp [places]

theorem places_cons_of_ne (f : Flight) {q q' : Question} (place : Nat) (h : q' ≠ q) :
    places { f with asked := (q, place) :: f.asked } q' = f.places q' := by
  simp [places, Ne.symm h]

theorem fill_cells_self (f : Flight) (q : Question) (c : Cell) : (f.fill q c).cells q = c := if_pos rfl

theorem fill_cells_of_ne (f : Flight) {q q' : Question} (c : Cell) (h : q' ≠ q) :
    (f.fill q c).cells q' = f.cells q' := if_neg h

theorem fill_self (f : Flight) (q : Question) : f.fill q (f.cells q) = f := by
  have hcells : (f.fill q (f.cells q)).cells = f.cells := by
    funext q'
    by_cases hq : q' = q
    · rw [hq, fill_cells_self]
    · exact fill_cells_of_ne f _ hq
  exact congrArg (fun cells => { f with cells }) hcells

/-- What lookups under way have come to: each cell holds what came of asking for its question, and
what a lookup has returned its cell holds for good. -/
structure Sound (n : Network) (acts : List Act) (f : Flight) : Prop where
  cells : ∀ q, n.Tracks acts q (f.places q) (f.cells q)
  results : ∀ t ∈ f.callers, ∀ result, t.result = some result →
    ∃ outcome, f.cells t.question = .full outcome ∧ result = t.sought.settle outcome

theorem Sound.append (h : f.Sound n acts) (more : List Act) : f.Sound n (acts ++ more) :=
  ⟨fun q => (h.cells q).append more, h.results⟩

theorem Sound.fill (h : f.Sound n acts) {q : Question} (hopen : ∀ outcome, f.cells q ≠ .full outcome)
    {c : Cell} (hc : n.Tracks acts q (f.places q) c) : (f.fill q c).Sound n acts where
  cells := by
    intro q'
    by_cases hq : q' = q
    · rw [hq, fill_cells_self]
      exact hc
    · rw [fill_cells_of_ne f c hq]
      exact h.cells q'
  results := by
    intro t ht result hr
    obtain ⟨outcome, hfull, hsettle⟩ := h.results t ht result hr
    refine ⟨outcome, ?_, hsettle⟩
    have hne : t.question ≠ q := by
      rintro rfl
      exact hopen outcome hfull
    rw [fill_cells_of_ne f c hne, hfull]

theorem Sound.call (h : f.Sound n acts) {q : Question} {w : Wanted} {reasons : List String}
    {place : Nat} {r : Remote} {rest : List (Nat × Remote)}
    (hc : f.cells q = .busy ⟨w, reasons, (place, r) :: rest⟩ false) :
    Sound n acts { f.fill q (.busy ⟨w, reasons, (place, r) :: rest⟩ true) with
      asked := (q, place) :: f.asked } where
  cells := by
    intro q'
    by_cases hq : q' = q
    · have ht := h.cells q
      rw [hc] at ht
      have hcall := ht.call
      rw [← places_cons_self f q place, ← fill_cells_self f q (.busy _ true)] at hcall
      rw [hq]
      exact hcall
    · have ht := h.cells q'
      rw [← places_cons_of_ne f place hq, ← fill_cells_of_ne f _ hq] at ht
      exact ht
  results := by
    intro t ht result hr
    obtain ⟨outcome, hfull, hsettle⟩ := h.results t ht result hr
    refine ⟨outcome, ?_, hsettle⟩
    have hne : t.question ≠ q := by
      rintro rfl
      cases hc.symm.trans hfull
    exact (fill_cells_of_ne f _ hne).trans hfull

theorem Sound.enter (h : (n.fly acts).Sound n acts) {i : Nat} {t : Caller}
    (ht : (n.fly acts).callers[i]? = some t) (hidle : (n.fly acts).cells t.question = .idle) :
    ((n.fly acts).fill t.question (n.embark t.sought.wanted)).Sound n (acts ++ [.enter i]) := by
  have hlead : n.Leads (acts ++ [.enter i]) t.sought.wanted :=
    ⟨acts, i, t, [], rfl, hidle, ht, rfl⟩
  have hcell := h.cells t.question
  rw [hidle] at hcell
  refine (h.append _).fill (by simp [hidle]) ?_
  rw [hcell.places_eq_nil]
  exact Network.tracks_embark hlead

theorem Sound.hear (h : f.Sound n acts) {q : Question} {w : Wanted} {reasons : List String}
    {place : Nat} {r : Remote} {rest : List (Nat × Remote)}
    (hc : f.cells q = .busy ⟨w, reasons, (place, r) :: rest⟩ true) {store : Store}
    (hheard : .hear q place store ∈ acts) :
    (f.fill q (n.resume w reasons { r with store } rest)).Sound n acts := by
  have ht := h.cells q
  rw [hc] at ht
  exact h.fill (by simp [hc]) (ht.resume hheard)

theorem mem_take {i : Nat} {t t' : Caller} {outcome : Outcome} {result : Except Failure Artifact}
    (ht' : t' ∈ f.callers.set i ⟨t.sought, some (t.sought.settle outcome)⟩)
    (hr : t'.result = some result) :
    t' ∈ f.callers ∨ t'.question = t.question ∧ result = t'.sought.settle outcome := by
  rcases List.mem_or_eq_of_mem_set ht' with ht' | rfl
  · exact .inl ht'
  · exact .inr ⟨rfl, (Option.some.inj hr).symm⟩

theorem Sound.take (h : f.Sound n acts) (i : Nat) {t : Caller} {outcome : Outcome}
    (hfull : f.cells t.question = .full outcome) :
    Sound n acts { f with
      callers := f.callers.set i ⟨t.sought, some (t.sought.settle outcome)⟩ } := by
  refine ⟨h.cells, fun t' ht' result hr => ?_⟩
  rcases mem_take ht' hr with ht' | ⟨hq, hsettle⟩
  · exact h.results t' ht' result hr
  · exact ⟨outcome, hq ▸ hfull, hsettle⟩

theorem Sound.step (h : (n.fly acts).Sound n acts) (act : Act) :
    ((n.fly acts).step n act).Sound n (acts ++ [act]) := by
  have h' := h.append [act]
  cases act with
  | spawn all =>
      refine ⟨h'.cells, fun t ht result hr => ?_⟩
      rcases List.mem_append.1 ht with ht | ht
      · exact h'.results t ht result hr
      · obtain ⟨s, -, rfl⟩ := List.mem_map.1 ht
        cases hr
  | enter i =>
      rw [Flight.step]
      split
      · exact h'
      next t ht =>
        split
        next hidle => exact h.enter ht hidle
        next => exact h'
  | call q =>
      rw [Flight.step]
      split
      next hc => exact h'.call hc
      next => exact h'
  | hear q place store =>
      rw [Flight.step]
      split
      next hc =>
        split_ifs with hplace
        · subst hplace
          exact h'.hear hc (by simp)
        · exact h'
      next => exact h'
  | take i =>
      rw [Flight.step]
      split
      · exact h'
      next t ht =>
        split
        next hfull => exact h'.take i hfull
        next => exact h'

theorem map_sought_fresh (all : List Sought) :
    (all.map fun s => (⟨s, none⟩ : Caller)).map Caller.sought = all := by
  rw [List.map_map]
  exact List.map_id all

theorem soughts_step (n : Network) (f : Flight) (act : Act) :
    (f.step n act).callers.map Caller.sought = f.callers.map Caller.sought ++ act.spawned := by
  cases act with
  | spawn all =>
      rw [step, List.map_append, map_sought_fresh]
      rfl
  | enter | call | hear =>
      rw [step, Act.spawned, List.append_nil]
      split
      · first | rfl | (split <;> rfl)
      · first | rfl | (split <;> rfl)
  | take i =>
      rw [step, Act.spawned, List.append_nil]
      split
      · rfl
      next t ht =>
        split
        · have hi : (f.callers.map Caller.sought)[i]? = some t.sought := by
            rw [List.getElem?_map, ht]; rfl
          obtain ⟨hlt, he⟩ := List.getElem?_eq_some_iff.1 hi
          rw [List.map_set, ← he]
          exact List.set_getElem_self hlt
        · rfl

theorem soughts_foldl (n : Network) (f : Flight) (acts : List Act) :
    (acts.foldl (step n) f).callers.map Caller.sought =
      f.callers.map Caller.sought ++ acts.flatMap Act.spawned := by
  induction acts generalizing f with
  | nil => simp
  | cons act acts ih =>
      rw [List.foldl_cons, ih, soughts_step, List.flatMap_cons, List.append_assoc]

end Flight

/-- Acts that begin no lookup, and let each remote that is heard have the store of its place. -/
def Act.Settles (stores : Nat → Store) : Act → Prop
  | .spawn _ => False
  | .hear _ place store => store = stores place
  | .enter _ | .call _ | .take _ => True

theorem Act.Settles.spawned_eq {act : Act} {stores : Nat → Store} (h : act.Settles stores) :
    act.spawned = [] := by
  cases act with
  | spawn all => exact absurd h id
  | enter | call | hear | take => rfl

namespace Flight

variable {n : Network} {acts : List Act} {f : Flight} {stores : Nat → Store} {q : Question}
  {w : Wanted}

def tell (f : Flight) (q : Question) : Outcome :=
  match f.cells q with
  | .full outcome => outcome
  | _ => .unclaimed

end Flight

end CausalWork
