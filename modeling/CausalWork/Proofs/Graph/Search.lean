import CausalWork.Proofs.Graph

namespace CausalWork.Graph

open CausalNode Precedence

variable {α : Type} [CausalNode α] {g : Graph α}

/-- A run of the search from ids in turn, after the nodes on the path to them, and what it comes to.
There are no steps to run out of, and each id that is looked at is one of a node. -/
inductive Visits (g : Graph α) :
    (path done ids : List String) → Except (List String) (List String) → Prop
  | nil {path done} : Visits g path done [] (.ok done)
  | known {path done id ids outcome} (hid : id ∈ g.ids) (h : id ∈ done)
      (hrest : Visits g path done ids outcome) : Visits g path done (id :: ids) outcome
  | closes {path done id ids} (hid : id ∈ g.ids) (hnew : id ∉ done) (h : id ∈ path) :
      Visits g path done (id :: ids) (.error (closeWalk path id))
  | enters {path done done' id ids outcome} (hid : id ∈ g.ids) (hnew : id ∉ done)
      (hout : id ∉ path) (h : Visits g (id :: path) done (g.parentsOf id) (.ok done'))
      (hrest : Visits g path (id :: done') ids outcome) : Visits g path done (id :: ids) outcome
  | fails {path done walk id ids} (hid : id ∈ g.ids) (hnew : id ∉ done) (hout : id ∉ path)
      (h : Visits g (id :: path) done (g.parentsOf id) (.error walk)) :
      Visits g path done (id :: ids) (.error walk)

theorem Visits.cons_ok {path done next ids : List String} {id : String}
    {outcome : Except (List String) (List String)} (h : Visits g path done [id] (.ok next))
    (hrest : Visits g path next ids outcome) : Visits g path done (id :: ids) outcome := by
  cases h with
  | known hid hm h =>
      cases h
      exact .known hid hm hrest
  | enters hid hnew hout h hnil =>
      cases hnil
      exact .enters hid hnew hout h hrest

theorem Visits.cons_error {path done walk : List String} {id : String}
    (h : Visits g path done [id] (.error walk)) (ids : List String) :
    Visits g path done (id :: ids) (.error walk) := by
  cases h with
  | known hid hm h => cases h
  | closes hid hnew h => exact .closes hid hnew h
  | enters hid hnew hout h hnil => cases hnil
  | fails hid hnew hout h => exact .fails hid hnew hout h

theorem visits_foldlM {path ids : List String}
    {visit : List String → String → Except (List String) (List String)}
    (hvisit : ∀ id ∈ ids, ∀ done, Visits g path done [id] (visit done id)) (done : List String) :
    Visits g path done ids (ids.foldlM visit done) := by
  induction ids generalizing done with
  | nil => exact .nil
  | cons id ids ih =>
      have hid := hvisit id List.mem_cons_self done
      rw [List.foldlM_cons]
      cases hv : visit done id with
      | error walk => exact (hv ▸ hid).cons_error ids
      | ok next =>
          exact (hv ▸ hid).cons_ok (ih (fun x hx => hvisit x (List.mem_cons_of_mem id hx)) next)

theorem parentsOf_subset {id : String} : g.parentsOf id ⊆ g.ids := by
  intro p hp
  unfold parentsOf at hp
  cases hg : g.get? id with
  | none =>
      rw [hg] at hp
      cases hp
  | some node =>
      rw [hg] at hp
      exact (mem_parents.1 hp).2

/-- The steps of a search suffice, since no path has more ids than there are nodes. -/
theorem visits_visit {steps : Nat} {path : List String} {id : String}
    (hsteps : steps + path.length = g.nodes.length + 1) (hpath : path.Nodup)
    (hsub : path ⊆ g.ids) (hid : id ∈ g.ids) (done : List String) :
    Visits g path done [id] (g.visit steps path done id) := by
  induction steps generalizing path id done with
  | zero =>
      have hle := (hpath.subperm hsub).length_le
      have hlen : g.ids.length = g.nodes.length := length_ids
      omega
  | succ steps ih =>
      unfold visit
      by_cases hdone : id ∈ done
      · rw [if_pos hdone]
        exact .known hid hdone .nil
      · rw [if_neg hdone]
        by_cases hin : id ∈ path
        · rw [if_pos hin]
          exact .closes hid hdone hin
        · rw [if_neg hin]
          have hparents : Visits g (id :: path) done (g.parentsOf id)
              ((g.parentsOf id).foldlM (g.visit steps (id :: path)) done) :=
            visits_foldlM (fun p hp done => ih (by rw [List.length_cons]; omega)
              (List.nodup_cons.2 ⟨hin, hpath⟩) (List.cons_subset.2 ⟨hid, hsub⟩)
              (parentsOf_subset hp) done) done
          cases hf : (g.parentsOf id).foldlM (g.visit steps (id :: path)) done with
          | error walk => exact .fails hid hdone hin (hf ▸ hparents)
          | ok next => exact .enters hid hdone hin (hf ▸ hparents) .nil

theorem exists_visits (g : Graph α) : ∃ outcome, Visits g [] [] g.ids outcome ∧
    g.cycle? = match outcome with
      | .ok _ => none
      | .error walk => some walk :=
  ⟨_, visits_foldlM (fun _ hid done => visits_visit rfl List.nodup_nil (List.nil_subset _) hid done)
    [], rfl⟩

theorem Visits.settled (hn : g.ids.Nodup) {path done ids : List String}
    {outcome : Except (List String) (List String)} (h : Visits g path done ids outcome)
    (hd : (g.precedence hn).Settled done) : ∀ done', outcome = .ok done' →
      (g.precedence hn).Settled done' ∧ done ⊆ done' ∧ ids ⊆ done' := by
  induction h with
  | nil =>
      intro done' he
      cases he
      exact ⟨hd, List.Subset.refl _, List.nil_subset _⟩
  | known hid hm hrest ih =>
      intro done' he
      obtain ⟨hs, hsub, hids⟩ := ih hd done' he
      exact ⟨hs, hsub, List.cons_subset.2 ⟨hsub hm, hids⟩⟩
  | closes | fails =>
      intro done' he
      cases he
  | enters hid hnew hout h hrest ihparents ihrest =>
      intro done' he
      obtain ⟨hs, hsub, hparents⟩ := ihparents hd _ rfl
      obtain ⟨hs', hsub', hids⟩ := ihrest (hs.cons hparents) done' he
      obtain ⟨hm, hrest⟩ := List.cons_subset.1 hsub'
      exact ⟨hs', List.Subset.trans hsub hrest, List.cons_subset.2 ⟨hm, hids⟩⟩

/-- Without a cycle the ids stand in some order, each after its parents. -/
theorem exists_settled (hn : g.ids.Nodup) (h : g.cycle? = none) :
    ∃ all, (g.precedence hn).Settled all ∧ ∀ id ∈ g.ids, id ∈ all := by
  obtain ⟨outcome, hv, hc⟩ := exists_visits g
  cases outcome with
  | error walk => cases hc.symm.trans h
  | ok all =>
      obtain ⟨hs, -, hids⟩ := hv.settled hn .nil all rfl
      exact ⟨all, hs, fun id hid => hids hid⟩

end CausalWork.Graph
