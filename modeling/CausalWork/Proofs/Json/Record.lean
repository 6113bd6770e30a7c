import CausalWork.Proofs.Json.Document
import CausalWork.Json.Fields

namespace CausalWork.Json

/-- The members of a record's fields: a field without a value has none. -/
def present (fields : List (String × Option Json)) : List (String × Json) :=
  fields.filterMap fun f => f.2.map (f.1, ·)

theorem present_nil : present [] = [] := rfl

theorem present_cons_none (name : String) (fields : List (String × Option Json)) :
    present ((name, none) :: fields) = present fields := rfl

theorem present_cons_some (name : String) (j : Json) (fields : List (String × Option Json)) :
    present ((name, some j) :: fields) = (name, j) :: present fields := rfl

theorem present_cons_map_text (name : String) (s : Option String)
    (fields : List (String × Option Json)) :
    present ((name, s.map text) :: fields) = Json.optional name s ++ present fields := by
  cases s <;> rfl

theorem filter_present_of_notMem {name : String} {fields : List (String × Option Json)}
    (h : name ∉ fields.map Prod.fst) : (present fields).filter (fun m => m.1 = name) = [] := by
  simp only [List.filter_eq_nil_iff, decide_eq_true_eq]
  rintro m hm rfl
  obtain ⟨f, hf, he⟩ := List.mem_filterMap.1 hm
  obtain ⟨j, -, rfl⟩ := Option.map_eq_some_iff.1 he
  exact h (List.mem_map_of_mem hf)

theorem member?_present {fields : List (String × Option Json)} (h : (fields.map Prod.fst).Nodup)
    {f : String × Option Json} (hf : f ∈ fields) : member? f.1 (present fields) = some f.2 := by
  induction fields with
  | nil => cases hf
  | cons g fields ih =>
      obtain ⟨name, value⟩ := g
      obtain ⟨hn, hs⟩ := List.nodup_cons.1 h
      rcases List.mem_cons.1 hf with rfl | hf
      · cases value with
        | none => simp [member?, present_cons_none, filter_present_of_notMem hn]
        | some j => simp [member?, present_cons_some, filter_present_of_notMem hn]
      · have hne : name ≠ f.1 := fun he => hn (List.mem_map.2 ⟨f, hf, he.symm⟩)
        rw [← ih hs hf]
        cases value with
        | none => rfl
        | some j => simp [member?, present_cons_some, hne]

theorem fields?_present (fields : List (String × Option Json))
    (h : (fields.map Prod.fst).Nodup) :
    (object (present fields)).fields? (fields.map Prod.fst) = some (fields.map Prod.snd) := by
  have hm : ∀ fs : List (String × Option Json), fs ⊆ fields →
      (fs.map Prod.fst).mapM (fun name => member? name (present fields)) =
        some (fs.map Prod.snd) := by
    intro fs
    induction fs with
    | nil => intro _; rfl
    | cons f fs ih =>
        intro hs
        have hf := member?_present h (hs List.mem_cons_self)
        have hr := ih fun g hg => hs (List.mem_cons_of_mem f hg)
        simp [hf, hr]
  exact hm fields fun _ hf => hf

theorem tagged?_present {m : Manner} {depth : Nat} {tag case : String} {cases : List String}
    {fields : List (String × Option Json)} (h : tag ∉ fields.map Prod.fst)
    (hf : m = .free ∨ (object ((tag, text case) :: present fields)).fits (deepest - depth)) :
    (object ((tag, text case) :: present fields)).tagged? m depth tag cases =
      some (case, object (present fields)) := by
  have hnone := filter_present_of_notMem h
  have hrest : (present fields).filter (fun m => m.1 ≠ tag) = present fields := by
    simp only [List.filter_eq_nil_iff, decide_eq_true_eq] at hnone
    exact List.filter_eq_self.2 fun m hm => by simpa using hnone m hm
  have htag : member? tag ((tag, text case) :: present fields) = some (some (text case)) := by
    simp [member?, hnone]
  have hm : (decide (m = .free) ||
      (object ((tag, text case) :: present fields)).fits (deepest - depth)) = true := by
    simpa using hf
  rw [tagged?, if_pos hm]
  simp only [htag, Option.bind_eq_bind, Option.bind_some, case?, List.filter_cons, ne_eq,
    not_true_eq_false, decide_false, Bool.false_eq_true, if_false, hrest]
  rfl

theorem membersFit_eq_all (room : Nat) (members : List (String × Json)) :
    membersFit room members = members.all fun m => fits room m.2 := by
  induction members with
  | nil => rfl
  | cons m members ih => rw [membersFit, ih, List.all_cons]

theorem membersPlain_eq_all (members : List (String × Json)) :
    membersPlain members = members.all fun m => isPlain m.2 := by
  induction members with
  | nil => rfl
  | cons m members ih => rw [membersPlain, ih, List.all_cons]

theorem all_present {p : Json → Bool} {fields : List (String × Option Json)}
    (h : ∀ f ∈ fields, f.2.all p) : (present fields).all fun m => p m.2 := by
  rw [List.all_eq_true]
  intro m hm
  obtain ⟨f, hf, he⟩ := List.mem_filterMap.1 hm
  obtain ⟨j, hj, rfl⟩ := Option.map_eq_some_iff.1 he
  simpa [hj] using h f hf

theorem all_map {α : Type} {p : Json → Bool} {write : α → Json} (h : ∀ a, p (write a))
    (value : Option α) : (value.map write).all p := by
  cases value <;> simp [h]

theorem fits_present {room : Nat} {fields : List (String × Option Json)}
    (h : ∀ f ∈ fields, f.2.all (fits room)) : fits (room + 1) (object (present fields)) := by
  rw [fits, membersFit_eq_all]
  simpa using all_present h

theorem isPlain_present {fields : List (String × Option Json)}
    (h : ∀ f ∈ fields, f.2.all isPlain) : isPlain (object (present fields)) := by
  rw [isPlain, membersPlain_eq_all]
  exact all_present h

end CausalWork.Json
