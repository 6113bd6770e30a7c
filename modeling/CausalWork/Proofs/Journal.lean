import CausalWork.Pool
import CausalWork.Proofs.Event

namespace CausalWork

open Text

theorem Text.closeLine_reverse {α : Type} [DecidableEq α] {ret last : α} (h : last ≠ ret)
    (line : List α) : closeLine ret (line ++ [last]).reverse = line ++ [last] := by
  simp [closeLine, h]

namespace Bytes

theorem newline_notMem_utf8EncodeChar {c : Char} (h : c ≠ '\n') :
    10 ∉ String.utf8EncodeChar c := by
  intro hm
  have hc : c.val.toNat = 10 := by
    unfold String.utf8EncodeChar at hm
    dsimp only at hm
    split_ifs at hm
    all_goals
      simp only [List.mem_cons, List.not_mem_nil, or_false, ← UInt8.toNat_inj, UInt8.toNat_ofNat',
        UInt8.reduceToNat] at hm
      omega
  exact h (Char.ext (UInt32.toNat_inj.1 hc))

theorem newline_notMem_ofText {s : String} (h : '\n' ∉ s.toList) : 10 ∉ ofText s := by
  intro hm
  obtain ⟨c, hc, hb⟩ := List.mem_flatMap.1 hm
  exact newline_notMem_utf8EncodeChar (fun he => h (he ▸ hc)) hb

end Bytes

namespace Journal

def entry (e : Event) : Bytes := Bytes.ofText e.toJson.compact

theorem line_eq (e : Event) : line e = entry e ++ [10] := Bytes.ofText_append _ _

theorem newline_notMem_entry (e : Event) : 10 ∉ entry e := by
  refine Bytes.newline_notMem_ofText ?_
  rw [Json.compact, String.toList_ofList]
  exact Json.newline_notMem_chars e.isPlain_toJson

theorem entry_eq_append (e : Event) : ∃ front, entry e = front ++ [125] := by
  obtain ⟨cs, hcs⟩ : ∃ cs, e.toJson.chars = cs ++ ['}'] := ⟨_, rfl⟩
  refine ⟨cs.flatMap String.utf8EncodeChar, ?_⟩
  rw [entry, Bytes.ofText, Json.compact, String.toList_ofList, hcs, List.flatMap_append]
  rfl

theorem closeLine_entry (e : Event) : closeLine 13 (entry e).reverse = entry e := by
  obtain ⟨front, h⟩ := entry_eq_append e
  rw [h, closeLine_reverse (by decide)]

theorem not_isBlankText_compact (e : Event) : isBlankText e.toJson.compact = false := by
  obtain ⟨cs, hcs⟩ : ∃ cs, e.toJson.chars = '{' :: cs := ⟨_, rfl⟩
  have hb : isBlank '{' = false := by decide
  simp [isBlankText, Json.compact, hcs, hb]

theorem event?_entry (e : Event) : event? (entry e) = .ok (some e) := by
  rw [event?, entry, Bytes.text?_ofText]
  simp only [not_isBlankText_compact, e.read_compact]
  rfl

theorem byteLines_line_append (e : Event) (rest : Bytes) :
    byteLines (line e ++ rest) = entry e :: byteLines rest := by
  rw [line_eq, List.append_assoc, List.singleton_append, byteLines, lines,
    linesFrom_append_feed 10 13 [] (entry e) rest (newline_notMem_entry e), List.append_nil,
    closeLine_entry]
  rfl

theorem byteLines_lines (es : List Event) : byteLines (es.flatMap line) = es.map entry := by
  induction es with
  | nil => rfl
  | cons e es ih => rw [List.flatMap_cons, byteLines_line_append, ih, List.map_cons]

/-- A journal that is made of the lines of events and of nothing else. -/
def Holds (journal : Journal) (es : List Event) : Prop := journal.getD [] = es.flatMap line

theorem holds_none : Holds none [] := rfl

theorem Holds.append {journal : Journal} {es : List Event} (h : journal.Holds es) (e : Event) :
    (journal.append e).Holds (es ++ [e]) := by
  rw [Holds, Journal.append, Option.getD_some, h]
  simp

/-- All events are read back, in order and none left out. -/
theorem Holds.events {journal : Journal} {es : List Event} (h : journal.Holds es) :
    journal.events = .ok es := by
  have hm : (es.map entry).mapM event? = .ok (es.map some) := by
    clear h
    induction es with
    | nil => rfl
    | cons e es ih =>
        rw [List.map_cons, List.mapM_cons, event?_entry, ih]
        rfl
  rw [Journal.events, h, byteLines_lines, hm]
  simp [bind, Except.bind, pure, Except.pure]

theorem Holds.units {journal : Journal} {es : List Event} (h : journal.Holds es) :
    journal.units = .ok (Units.replay es) := by
  rw [Journal.units, h.events]
  rfl

end Journal

end CausalWork
