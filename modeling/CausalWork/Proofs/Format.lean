import CausalWork.Event
import CausalWork.Proofs.Event
import CausalWork.Validation

namespace CausalWork

open Json

namespace Json

theorem texts?_list (items : List String) : texts? (list items) = some items := by
  change (items.map text).mapM text? = some items
  induction items with
  | nil => rfl
  | cons s items ih => simp [ih, text?]

theorem isPlain_list (items : List String) : (list items).isPlain := by
  change itemsPlain (items.map text)
  induction items with
  | nil => rfl
  | cons s items ih => exact ih

end Json

namespace Locator

def record (l : Locator) : List (String × Option Json) :=
  [("repo", some (text l.repo)), ("track", l.track.map text), ("pinned", l.pinned.map text)]

theorem members_eq (l : Locator) : l.members = present l.record := by
  simp only [record, present_nil, present_cons_some, present_cons_map_text, List.append_nil]
  rfl

theorem all_record {p : Json → Bool} (h : ∀ s, p (text s)) (l : Locator) :
    ∀ f ∈ l.record, f.2.all p := by
  simp [record, h, all_map h]

theorem ofJson?_record (l : Locator) : Locator.ofJson? (object (present l.record)) = some l := by
  have hf : (object (present l.record)).fields? ["repo", "track", "pinned"] =
      some (l.record.map Prod.snd) := fields?_present l.record (by simp [record])
  rw [ofJson?, hf]
  simp [record, required, text?, WorkUnit.nullable_text]

end Locator

namespace Source

def case : Source → String
  | home => "local"
  | external _ => "external"

def record : Source → List (String × Option Json)
  | home => []
  | external l => l.record

theorem toJson_eq (s : Source) : s.toJson = object (("origin", text s.case) :: present s.record) := by
  cases s with
  | home => rfl
  | external l => rw [toJson, l.members_eq, case, record]

theorem all_record {p : Json → Bool} (h : ∀ s, p (text s)) (s : Source) :
    ∀ f ∈ s.record, f.2.all p := by
  cases s with
  | home => simp [record]
  | external l => exact l.all_record h

theorem isPlain_toJson (s : Source) : s.toJson.isPlain := by
  rw [toJson_eq, ← present_cons_some]
  exact isPlain_present (List.forall_mem_cons.2 ⟨rfl, s.all_record fun _ => rfl⟩)

theorem fits_toJson (s : Source) (room : Nat) : s.toJson.fits (room + 1) := by
  rw [toJson_eq, ← present_cons_some]
  exact fits_present (List.forall_mem_cons.2 ⟨rfl, s.all_record fun _ => rfl⟩)

theorem ofJson?_toJson (s : Source) : Source.ofJson? s.toJson = some s := by
  have ht : s.toJson.tagged? .strict 1 "origin" ["local", "external"] =
      some (s.case, object (present s.record)) := by
    have hfit := s.fits_toJson (deepest - 1 - 1)
    rw [toJson_eq] at hfit ⊢
    refine tagged?_present ?_ (.inr hfit)
    cases s <;> simp [record, Locator.record]
  rw [ofJson?, ht]
  cases s with
  | home => rfl
  | external l => simp [case, record, l.ofJson?_record]

end Source

theorem Status.ofJson?_toJson (s : Status) : Status.ofJson? s.toJson = some s := by
  simp [ofJson?, toJson, word?, Kind.ofName?_name, ofName?_name]

namespace Artifact

def record (a : Artifact) : List (String × Option Json) :=
  [("id", some (text a.id)), ("kind", some a.kind.toJson), ("status", some a.status.toJson),
    ("created_after", some (list a.createdAfter)), ("subsystems", some (list a.subsystems)),
    ("source", some a.source.toJson)]

theorem isPlain_toJson (a : Artifact) : a.toJson.isPlain := by
  change (object (present a.record)).isPlain
  refine isPlain_present ?_
  simp [record, isPlain, membersPlain, Kind.toJson, Status.toJson, isPlain_list,
    a.source.isPlain_toJson]

theorem ofJson?_toJson (a : Artifact) : Artifact.ofJson? a.toJson = some a := by
  have hf : a.toJson.fields? ["id", "kind", "status", "created_after", "subsystems", "source"] =
      some (a.record.map Prod.snd) := fields?_present a.record (by simp [record])
  rw [ofJson?, hf]
  simp [record, required, defaulted, text?, texts?_list, Kind.ofJson?_toJson, Status.ofJson?_toJson,
    Source.ofJson?_toJson]

end Artifact

namespace Reference

def record (r : Reference) : List (String × Option Json) :=
  [("id", some (text r.id)), ("kind", some r.kind.toJson), ("locator", some r.locator.toJson),
    ("created_after", some (list r.createdAfter))]

theorem isPlain_toJson (r : Reference) : r.toJson.isPlain := by
  have hl : r.locator.toJson.isPlain := by
    rw [Locator.toJson, Locator.members_eq]
    exact isPlain_present (r.locator.all_record fun _ => rfl)
  change (object (present r.record)).isPlain
  refine isPlain_present ?_
  simp [record, isPlain, Kind.toJson, isPlain_list, hl]

theorem ofJson?_toJson (r : Reference) : Reference.ofJson? r.toJson = some r := by
  have hf : r.toJson.fields? ["id", "kind", "locator", "created_after"] =
      some (r.record.map Prod.snd) := fields?_present r.record (by simp [record])
  have hl : Locator.ofJson? r.locator.toJson = some r.locator := by
    rw [Locator.toJson, Locator.members_eq]
    exact r.locator.ofJson?_record
  rw [ofJson?, hf]
  simp [record, required, defaulted, text?, texts?_list, Kind.ofJson?_toJson, hl]

end Reference

theorem Summary.ofJson?_toJson (s : Summary) : Summary.ofJson? s.toJson = some s := rfl

namespace Issue

theorem ofJson?_name (code : IssueCode) : IssueCode.ofJson? (text code.name) = some code := by
  cases code <;> rfl

def record (i : Issue) : List (String × Option Json) :=
  [("code", some (text i.code.name)), ("message", some (text i.message))]

theorem ofJson?_toJson (i : Issue) : Issue.ofJson? i.toJson = some i := by
  have hf : i.toJson.fields? ["code", "message"] = some (i.record.map Prod.snd) :=
    fields?_present i.record (by simp [record])
  rw [ofJson?, hf]
  simp [record, required, text?, ofJson?_name]

end Issue

structure Format (α : Type) where
  write : α → Json
  read? : Json → Option α

namespace Format

variable {α : Type} (f : Format α)

def toText (a : α) : String := (f.write a).compact

def ofText? (s : String) : Option α := (parse? s).bind f.read?

def again? (s : String) : Option String := (f.ofText? s).map f.toText

/-- What is written is read back from one line of text, so that a text which was written again stays
as it is. -/
structure Faithful : Prop where
  read_back : ∀ a, f.ofText? (f.toText a) = some a
  one_line : ∀ a, ∀ c ∈ (f.toText a).toList, 32 ≤ c.toNat
  stable : ∀ s t, f.again? s = some t → f.again? t = some t

theorem Faithful.of_plain {f : Format α} (hp : ∀ a, (f.write a).isPlain)
    (hr : ∀ a, f.read? (f.write a) = some a) : f.Faithful := by
  have hback : ∀ a, f.ofText? (f.toText a) = some a := by
    intro a
    rw [ofText?, toText, parse?_compact (hp a), Option.bind_some]
    exact hr a
  refine ⟨hback, fun a => ?_, fun s t h => ?_⟩
  · rw [toText, compact, String.toList_ofList]
    exact printable_chars (hp a)
  · obtain ⟨a, -, rfl⟩ := Option.map_eq_some_iff.1 h
    rw [again?, hback, Option.map_some]

def artifact : Format Artifact := ⟨Artifact.toJson, Artifact.ofJson?⟩

def reference : Format Reference := ⟨Reference.toJson, Reference.ofJson?⟩

def workUnit : Format WorkUnit := ⟨WorkUnit.toJson, WorkUnit.ofJson? .strict⟩

def transition : Format Transition := ⟨Transition.toJson, Transition.ofJson? .strict⟩

def event : Format Event := ⟨Event.toJson, Event.ofJson?⟩

def issue : Format Issue := ⟨Issue.toJson, Issue.ofJson?⟩

def summary : Format Summary := ⟨Summary.toJson, Summary.ofJson?⟩

/-- Every type that is written is read back as it was. -/
theorem formats_faithful : artifact.Faithful ∧ reference.Faithful ∧ workUnit.Faithful ∧
    transition.Faithful ∧ event.Faithful ∧ issue.Faithful ∧ summary.Faithful :=
  ⟨.of_plain Artifact.isPlain_toJson Artifact.ofJson?_toJson,
    .of_plain Reference.isPlain_toJson Reference.ofJson?_toJson,
    .of_plain WorkUnit.isPlain_toJson (WorkUnit.ofJson?_toJson .strict),
    .of_plain Transition.isPlain_toJson (Transition.ofJson?_toJson .strict),
    .of_plain Event.isPlain_toJson Event.ofJson?_toJson,
    .of_plain (fun _ => rfl) Issue.ofJson?_toJson,
    .of_plain (fun _ => rfl) Summary.ofJson?_toJson⟩

end Format

end CausalWork
