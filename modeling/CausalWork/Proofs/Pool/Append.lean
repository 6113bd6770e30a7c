import CausalWork.Proofs.Json.Extended
import CausalWork.Proofs.Pool.Log
import CausalWork.Proofs.Text.LastLine

namespace CausalWork

open Text CausalWork.Units

def Units.perform (units : Units) (call : Call) : Units :=
  match units.react call with
  | .error _ => units
  | .ok (_, e) => units.record e

namespace Bytes

theorem eq_ofText {b : Bytes} {s : String} (h : b.text? = some s) : b = ofText s := by
  obtain ⟨cs, hd, -⟩ := Option.map_eq_some_iff.1 h
  have hv : b.toByteArray.IsValidUTF8 :=
    ByteArray.isSome_utf8Decode?_iff.1 (Option.isSome_iff_exists.2 ⟨cs, hd⟩)
  obtain ⟨l, hl⟩ := hv
  have hb : b = ofText (String.ofList l) := by
    have hlist := congrArg (fun bytes => bytes.data.toList) hl
    rw [List.utf8Encode] at hlist
    simpa [ofText] using hlist
  rw [hb, text?_ofText] at h
  rw [hb, Option.some.inj h]

def isSpace (b : UInt8) : Bool := b = 32 || b = 9 || b = 13

theorem exists_ofText_of_isSpace {b : Bytes} (h : ∀ x ∈ b, isSpace x) :
    ∃ cs : List Char, b = ofText (String.ofList cs) ∧ ∀ c ∈ cs, Json.isSpace c := by
  induction b with
  | nil => exact ⟨[], rfl, by simp⟩
  | cons x b ih =>
      obtain ⟨cs, hb, hcs⟩ := ih fun y hy => h y (List.mem_cons_of_mem x hy)
      obtain ⟨c, hc, hx⟩ : ∃ c, Json.isSpace c ∧ String.utf8EncodeChar c = [x] := by
        have hx := h x List.mem_cons_self
        simp only [isSpace, Bool.or_eq_true, decide_eq_true_eq] at hx
        rcases hx with (rfl | rfl) | rfl
        · exact ⟨' ', by decide, by decide⟩
        · exact ⟨'\t', by decide, by decide⟩
        · exact ⟨'\r', by decide, by decide⟩
      refine ⟨c :: cs, ?_, List.forall_mem_cons.2 ⟨hc, hcs⟩⟩
      simpa [ofText, hx] using hb

theorem isSpace_of_mem_ofText {s : String} (h : ∀ c ∈ s.toList, Json.isSpace c) {x : UInt8}
    (hx : x ∈ ofText s) (hf : x ≠ 10) : isSpace x := by
  obtain ⟨c, hc, hx⟩ := List.mem_flatMap.1 hx
  have hs := h c hc
  simp only [Json.isSpace, Bool.or_eq_true, decide_eq_true_eq] at hs
  rcases hs with ((rfl | rfl) | rfl) | rfl <;> simp_all [String.utf8EncodeChar, isSpace]

end Bytes

namespace Journal

variable {journal : Journal} {es : List Event} {units : Units}

/-- Whether a line can be added: spaces at most stand after the last line feed. -/
def isOpen (journal : Journal) : Bool := (lastLine 10 (journal.getD [])).all Bytes.isSpace

theorem isOpen_append (journal : Journal) (e : Event) : (journal.append e).isOpen := by
  have hlast : lastLine 10 ((journal.append e).getD []) = [] := by
    rw [append, Option.getD_some, line_eq, ← List.append_assoc]
    exact List.rtakeWhile_concat_neg _ _ _ (by simp)
  rw [isOpen, hlast]
  rfl

theorem not_isBlankText_append (s : String) (e : Event) :
    isBlankText (s ++ e.toJson.compact) = false := by
  have hb := not_isBlankText_compact e
  rw [isBlankText] at hb ⊢
  rw [String.toList_append, List.all_append, hb, Bool.and_false]

theorem event?_spaces_append {front : Bytes} (h : ∀ x ∈ front, Bytes.isSpace x) (e : Event) :
    event? (front ++ entry e) = .ok (some e) := by
  obtain ⟨cs, rfl, hcs⟩ := Bytes.exists_ofText_of_isSpace h
  have hj := Json.parse?_spaces_append hcs e.isPlain_toJson
  rw [event?, entry, ← Bytes.ofText_append, Bytes.text?_ofText]
  simp only [not_isBlankText_append, hj, Option.bind_some, e.ofJson?_toJson]
  rfl

theorem event?_append_entry {front : Bytes} {found : Option Event} (h : event? front = .ok found)
    (hs : ¬ ∀ x ∈ front, Bytes.isSpace x) (hf : 10 ∉ front) (e : Event) :
    event? (front ++ entry e) = .error .noEvent := by
  obtain ⟨s, ht⟩ : ∃ s, front.text? = some s := by
    by_contra hn
    rw [event?, Option.eq_none_iff_forall_ne_some.2 fun s hs => hn ⟨s, hs⟩] at h
    cases h
  obtain rfl := Bytes.eq_ofText ht
  have hj : Json.parse? (s ++ e.toJson.compact) = none := by
    rw [event?, ht] at h
    dsimp only at h
    split_ifs at h with hb
    case pos =>
      -- Some blank of the line is no space of a document, for else its bytes were spaces.
      have hsp : ¬ ∀ c ∈ s.toList, Json.isSpace c := fun hsp => hs fun x hx =>
        Bytes.isSpace_of_mem_ofText hsp hx (ne_of_mem_of_not_mem hx hf)
      simpa using Json.parse?_blanks_append (List.all_eq_true.1 hb) hsp e.toJson.compact
    case neg =>
      cases hp : Json.parse? s with
      | none =>
          rw [hp] at h
          cases h
      | some j => exact Json.parse?_append_brace hp _
  rw [event?, entry, ← Bytes.ofText_append, Bytes.text?_ofText]
  simp only [not_isBlankText_append, hj]
  rfl

theorem byteLines_append_line (content : Bytes) (e : Event) : byteLines (content ++ line e) =
    fullLines 10 13 content ++ [lastLine 10 content ++ entry e] := by
  obtain ⟨front, hfront⟩ := entry_eq_append e
  rw [line_eq, byteLines, lines_append_line 13 content (newline_notMem_entry e), hfront,
    ← List.append_assoc, closeLine_reverse (by decide)]

def read (lines : List Bytes) : Except PoolError (List Event) := do
  return (← lines.mapM event?).filterMap id

theorem read_append (front : List Bytes) (last : Bytes) : read (front ++ [last]) = (do
    let ahead ← read front
    let found ← event? last
    return ahead ++ found.toList) := by
  rw [read, read, List.mapM_append, List.mapM_cons, List.mapM_nil]
  cases front.mapM event? with
  | error error => rfl
  | ok ahead =>
      cases event? last with
      | error error => rfl
      | ok found => cases found <;> simp [bind, Except.bind, pure, Except.pure]

theorem event?_spaces {front : Bytes} (h : ∀ x ∈ front, Bytes.isSpace x) :
    event? front = .ok none := by
  obtain ⟨cs, rfl, hcs⟩ := Bytes.exists_ofText_of_isSpace h
  have hb : isBlankText (String.ofList cs) := by
    rw [isBlankText, String.toList_ofList]
    exact List.all_eq_true.2 fun c hc => Json.isBlank_of_isSpace (hcs c hc)
  rw [event?, Bytes.text?_ofText]
  exact if_pos hb

theorem events_eq (journal : Journal) :
    journal.events = read (fullLines 10 13 (journal.getD []) ++ [lastLine 10 (journal.getD [])]) := by
  rw [events, byteLines, lines_eq]
  split_ifs with h
  · -- An empty last line is no line of the file, and would be a blank one.
    rw [List.append_nil, read_append, List.isEmpty_iff.1 h, event?_spaces (by simp)]
    change read _ = _
    cases read (fullLines 10 13 (journal.getD [])) <;> simp [bind, Except.bind, pure, Except.pure]
  · rfl

theorem events_append_eq (journal : Journal) (e : Event) : (journal.append e).events =
    read (fullLines 10 13 (journal.getD []) ++ [lastLine 10 (journal.getD []) ++ entry e]) := by
  rw [events, append, Option.getD_some, byteLines_append_line]
  rfl

/-- An event is read back after those before it if its line starts on its own. Where the last line
has not ended, the event joins it and the journal can be read no more. -/
theorem events_append (h : journal.events = .ok es) (e : Event) :
    (journal.append e).events = if journal.isOpen then .ok (es ++ [e]) else .error .noEvent := by
  rw [events_eq, read_append] at h
  rw [events_append_eq, read_append]
  cases ha : read (fullLines 10 13 (journal.getD [])) with
  | error error =>
      rw [ha] at h
      cases h
  | ok ahead =>
      cases hl : event? (lastLine 10 (journal.getD [])) with
      | error error =>
          rw [ha, hl] at h
          cases h
      | ok found =>
          rw [ha, hl] at h
          cases h
          split_ifs with hopen
          case pos =>
            have hs := List.all_eq_true.1 hopen
            rw [event?_spaces hs] at hl
            rw [event?_spaces_append hs]
            cases hl
            simp [bind, Except.bind, pure, Except.pure]
          case neg =>
            -- What follows the last feed mark was read by itself. Now a brace follows it.
            have hs := mt List.all_eq_true.2 hopen
            rw [event?_append_entry hl hs (feed_notMem_lastLine 10 _)]
            rfl

theorem units_append (h : journal.units = .ok units) (e : Event) : (journal.append e).units =
    if journal.isOpen then .ok (units.record e) else .error .noEvent := by
  rw [Journal.units] at h ⊢
  cases hes : journal.events with
  | error error =>
      rw [hes] at h
      cases h
  | ok es =>
      rw [hes] at h
      cases h
      rw [events_append hes e]
      split_ifs
      · exact congrArg Except.ok (replay_append_singleton es e)
      · rfl

theorem list_append (h : journal.units = .ok units) (e : Event) : Pool.list (journal.append e) =
    if journal.isOpen then .ok (ordered ((units.record e).map Prod.snd)) else .error .noEvent := by
  rw [Pool.list, units_append h e]
  split_ifs <;> rfl

theorem units_foldl (h : journal.units = .ok units) (hopen : journal.isOpen) (calls : List Call) :
    (calls.foldl (fun journal call => (journal.perform call).2) journal).units =
      .ok (calls.foldl Units.perform units) := by
  induction calls generalizing journal units with
  | nil => exact h
  | cons call calls ih =>
      rw [List.foldl_cons, List.foldl_cons, perform_eq h, Units.perform]
      cases units.react call with
      | error error => exact ih h hopen
      | ok told =>
          refine ih ?_ (isOpen_append journal told.2)
          rw [units_append h told.2, if_pos hopen]

theorem enqueue_ok {u : WorkUnit} {id : Uuid} {after : Journal} (h : journal.units = .ok units)
    (he : Pool.enqueue journal u = (.ok id, after)) :
    after = journal.append (.enqueued (numbered units u)) := by
  rw [enqueue_eq h] at he
  split at he
  case h_1 => cases he
  case h_2 =>
    cases he
    rfl

theorem transition_ok {now : Timestamp} {id : Uuid} {t : Transition} {v : WorkUnit}
    {after : Journal} (h : journal.units = .ok units)
    (ht : Pool.transition journal now id t = (.ok v, after)) :
    ∃ u, units.get? id = some u ∧ u.apply t now = .ok v ∧
      after = journal.append (.transitioned id now t) := by
  rw [transition_eq h] at ht
  split at ht
  case h_1 => cases ht
  case h_2 u hget =>
    split at ht
    case h_1 => cases ht
    case h_2 v happly =>
      cases ht
      exact ⟨u, hget, happly, rfl⟩

/-- After a write that succeeds, the pool lists what was there with the one change made, provided
that the last line had ended. Otherwise the write leaves a journal that cannot be read. -/
theorem list_after_write (h : journal.units = .ok units) :
    (∀ u id after, Pool.enqueue journal u = (.ok id, after) → Pool.list after =
      if journal.isOpen then .ok (ordered ((units.put u.id (numbered units u)).map Prod.snd))
      else .error .noEvent) ∧
    (∀ now id t v after, Pool.transition journal now id t = (.ok v, after) → Pool.list after =
      if journal.isOpen then .ok (ordered ((units.put id v).map Prod.snd)) else .error .noEvent) ∧
    (journal.isOpen → ∀ calls : List Call,
      (calls.foldl (fun journal call => (journal.perform call).2) journal).units =
        .ok (calls.foldl Units.perform units)) := by
  refine ⟨fun u id after he => ?_, fun now id t v after ht => ?_, units_foldl h⟩
  · rw [enqueue_ok h he, list_append h, record_enqueued]
    rfl
  · obtain ⟨u, hget, happly, rfl⟩ := transition_ok h ht
    rw [list_append h, record_transitioned hget happly]

theorem enqueue_of_free (h : journal.units = .ok units) {u : WorkUnit}
    (hfree : (Pool.ofArtifact units u.kind u.artifactId).find? WorkUnit.isLive = none) :
    Pool.enqueue journal u = (.ok u.id, journal.append (.enqueued (numbered units u))) := by
  rw [enqueue_eq h, hfree]

theorem units_of_byteLines {content : Bytes} {e : Event} (h : byteLines content = [entry e]) :
    Journal.units (some content) = .ok (replay [e]) := by
  rw [Journal.units, events, Option.getD_some, h, List.mapM_cons, event?_entry]
  rfl

theorem byteLines_returned (e : Event) : byteLines (entry e ++ [13] ++ [10]) = [entry e] := by
  have hfeed : (10 : UInt8) ∉ entry e ++ [13] := by
    simp [newline_notMem_entry]
  rw [byteLines, lines, linesFrom_append_feed 10 13 [] _ [] hfeed]
  simp [closeLine, linesFrom]

theorem isOpen_returned (e : Event) : isOpen (some (entry e ++ [13] ++ [10])) := by
  have hlast : lastLine 10 (entry e ++ [13] ++ [10]) = [] :=
    List.rtakeWhile_concat_neg _ _ _ (by simp)
  rw [isOpen, Option.getD_some, hlast]
  rfl

theorem byteLines_entry (e : Event) : byteLines (entry e) = [entry e] := by
  obtain ⟨front, hfront⟩ := entry_eq_append e
  rw [byteLines, lines, linesFrom_of_notMem 13 [] (newline_notMem_entry e), if_neg (by simp [hfront]),
    List.reverse_nil, List.nil_append]

theorem not_isOpen_entry (e : Event) : ¬ isOpen (some (entry e)) := by
  obtain ⟨front, hfront⟩ := entry_eq_append e
  have hlast : lastLine 10 (entry e) = entry e :=
    List.rtakeWhile_eq_self_iff.2 fun x hx => by
      simpa using ne_of_mem_of_not_mem hx (newline_notMem_entry e)
  rw [isOpen, Option.getD_some, hlast, hfront]
  simp [Bytes.isSpace]

open Pool in
theorem list_after_write_returned :
    let u := sampleUnit 0
    let v := { sampleUnit 1 with artifactId := "lexer" }
    let journal : Journal := some (entry (.enqueued u) ++ [13] ++ [10])
    journal.units = .ok [(u.id, u)] ∧ (Pool.enqueue journal v).1 = .ok v.id ∧
      Pool.list (Pool.enqueue journal v).2 = .ok [u, v] := by
  intro u v journal
  have hunits : journal.units = .ok [(u.id, u)] :=
    units_of_byteLines (byteLines_returned (.enqueued u))
  have hopen : journal.isOpen := isOpen_returned (.enqueued u)
  clear_value journal
  have henqueue := enqueue_of_free hunits (show (ofArtifact _ v.kind v.artifactId).find? _ = none by
    decide)
  refine ⟨hunits, by rw [henqueue], ?_⟩
  rw [henqueue, (list_after_write hunits).1 v v.id _ henqueue, if_pos hopen]
  exact congrArg Except.ok (List.mergeSort_of_pairwise (by decide +kernel))

open Pool in
/-- A line that has not ended is damaged by the next write, and all units are lost with it. -/
theorem unended_line_damaged :
    let u := sampleUnit 0
    let v := { sampleUnit 1 with artifactId := "lexer" }
    let journal : Journal := some (entry (.enqueued u))
    Pool.list journal = .ok [u] ∧ (Pool.enqueue journal v).1 = .ok v.id ∧
      Pool.list (Pool.enqueue journal v).2 = .error .noEvent := by
  intro u v journal
  have hunits : journal.units = .ok [(u.id, u)] :=
    units_of_byteLines (byteLines_entry (.enqueued u))
  have hopen : ¬ journal.isOpen := not_isOpen_entry (.enqueued u)
  clear_value journal
  have henqueue := enqueue_of_free hunits (show (ofArtifact _ v.kind v.artifactId).find? _ = none by
    decide)
  refine ⟨?_, by rw [henqueue], ?_⟩
  · rw [Pool.list, hunits]
    decide +kernel
  · rw [henqueue, list_append hunits, if_neg hopen]

end Journal

end CausalWork
