import CausalWork.Path
import Mathlib.Data.List.Basic
import Mathlib.Data.List.Intervals

namespace CausalWork

namespace Text

variable {α : Type} [DecidableEq α]

theorem splitFrom_of_notMem {sep : α} (done : List α) {cs : List α} (h : sep ∉ cs) :
    splitFrom sep done cs = [done.reverse ++ cs] := by
  induction cs generalizing done with
  | nil => simp [splitFrom]
  | cons c cs ih =>
      have hc : c ≠ sep := fun e => h (e ▸ List.mem_cons_self)
      simp [splitFrom, hc, ih (c :: done) fun m => h (List.mem_cons_of_mem c m)]

theorem splitFrom_append_sep (sep : α) (done cs rest : List α) :
    splitFrom sep done (cs ++ sep :: rest) = splitFrom sep done cs ++ split sep rest := by
  induction cs generalizing done with
  | nil => simp [splitFrom, split]
  | cons c cs ih =>
      rw [List.cons_append, splitFrom, splitFrom]
      split <;> simp [ih]

theorem exists_splitFrom_append (sep : α) (done cs : List α) : ∃ front last,
    ∀ tail, sep ∉ tail → splitFrom sep done (cs ++ tail) = front ++ [last ++ tail] := by
  induction cs generalizing done with
  | nil => exact ⟨[], done.reverse, fun tail h => splitFrom_of_notMem done h⟩
  | cons c cs ih =>
      by_cases hc : c = sep
      · obtain ⟨front, last, h⟩ := ih []
        exact ⟨done.reverse :: front, last, fun tail ht => by simp [splitFrom, hc, h tail ht]⟩
      · obtain ⟨front, last, h⟩ := ih (c :: done)
        exact ⟨front, last, fun tail ht => by simp [splitFrom, hc, h tail ht]⟩

theorem splitFrom_eq_splitOn (sep : α) (done cs : List α) (h : sep ∉ done) :
    splitFrom sep done cs = (done.reverse ++ cs).splitOn sep := by
  induction cs generalizing done with
  | nil =>
      rw [List.append_nil, List.splitOn_eq_singleton (by simpa using h)]
      rfl
  | cons c cs ih =>
      rw [splitFrom]
      split
      case isTrue hc =>
        subst hc
        rw [List.splitOn_append_cons_self, List.splitOn_eq_singleton (by simpa using h),
          ih [] List.not_mem_nil]
        rfl
      case isFalse hc =>
        have hdone : sep ∉ c :: done := by simp [h, Ne.symm hc]
        rw [ih (c :: done) hdone]
        simp

theorem split_eq_splitOn (sep : α) (cs : List α) : split sep cs = cs.splitOn sep :=
  splitFrom_eq_splitOn sep [] cs List.not_mem_nil

theorem notMem_of_mem_splitFrom {sep : α} {done cs piece : List α} (hd : sep ∉ done)
    (h : piece ∈ splitFrom sep done cs) : sep ∉ piece := by
  induction cs generalizing done with
  | nil =>
      obtain rfl := List.mem_singleton.1 h
      simpa using hd
  | cons c cs ih =>
      rw [splitFrom] at h
      split at h
      case isTrue hc =>
        rcases List.mem_cons.1 h with rfl | h
        · simpa using hd
        · exact ih List.not_mem_nil h
      case isFalse hc => exact ih (by simp [hd, Ne.symm hc]) h

end Text

namespace Path

open Text

theorem pieces_ne_nil (path : String) : pieces path ≠ [] := by
  rw [pieces, split_eq_splitOn]
  simp [List.splitOn_ne_nil]

theorem pieces_injective : Function.Injective pieces := by
  intro path other h
  have hparts : split '/' path.toList = split '/' other.toList :=
    List.map_injective_iff.2 (fun _ _ => String.ofList_injective) h
  rw [split_eq_splitOn, split_eq_splitOn] at hparts
  have hjoined := congrArg ['/'].intercalate hparts
  rwa [List.intercalate_splitOn, List.intercalate_splitOn, String.toList_inj] at hjoined

theorem slash_notMem_piece {path piece : String} (h : piece ∈ pieces path) :
    '/' ∉ piece.toList := by
  obtain ⟨cs, hcs, rfl⟩ := List.mem_map.1 h
  rw [String.toList_ofList]
  exact notMem_of_mem_splitFrom List.not_mem_nil hcs

theorem exists_pieces_append (path : String) : ∃ front last,
    ∀ tail : String, '/' ∉ tail.toList → pieces (path ++ tail) = front ++ [last ++ tail] := by
  obtain ⟨front, last, h⟩ := exists_splitFrom_append '/' [] path.toList
  refine ⟨front.map String.ofList, String.ofList last, fun tail ht => ?_⟩
  rw [pieces, String.toList_append, split, h tail.toList ht]
  simp

theorem pieces_intercalate {names : List String} (h : ∀ name ∈ names, '/' ∉ name.toList)
    (hne : names ≠ []) : pieces (String.intercalate "/" names) = names := by
  have hslash : ("/" : String).toList = ['/'] := rfl
  rw [pieces, String.toList_intercalate, split_eq_splitOn, hslash, List.splitOn_intercalate]
  · simp
  · simpa using h
  · simpa using hne

theorem isAbsolute_iff (path : String) :
    isAbsolute path ↔ ∃ names, names ≠ [] ∧ pieces path = "" :: names := by
  have hjoined : ['/'].intercalate (split '/' path.toList) = path.toList := by
    rw [split_eq_splitOn, List.intercalate_splitOn]
  have hfree : ∀ piece ∈ split '/' path.toList, '/' ∉ piece :=
    fun piece h => notMem_of_mem_splitFrom List.not_mem_nil h
  rw [isAbsolute, decide_eq_true_eq, pieces]
  generalize split '/' path.toList = parts at hfree hjoined ⊢
  rw [← hjoined]
  clear hjoined
  match parts with
  | [] => simp
  | [first] =>
      have hfirst := hfree first List.mem_cons_self
      cases first with
      | nil => simp
      | cons c cs =>
          have hc : c ≠ '/' := fun hc => hfirst (hc ▸ List.mem_cons_self)
          simp [hc]
  | first :: second :: rest =>
      have hfirst := hfree first List.mem_cons_self
      cases first with
      | nil => simp [List.intercalate, List.intersperse]
      | cons c cs =>
          have hc : c ≠ '/' := fun hc => hfirst (hc ▸ List.mem_cons_self)
          simp [List.intercalate, List.intersperse, hc]

theorem isPlain_iff (name : String) : isPlain name ↔
    name ≠ "" ∧ '/' ∉ name.toList ∧ '\\' ∉ name.toList ∧ name ≠ "." ∧ name ≠ ".." := by
  have hfree (mark : Char) : (∀ c ∈ name.toList, c ≠ mark) ↔ mark ∉ name.toList :=
    ⟨fun h hm => h mark hm rfl, fun h c hc he => h (he ▸ hc)⟩
  simp only [isPlain, Bool.and_eq_true, Bool.not_eq_true', ← Bool.not_eq_true, String.isEmpty_iff,
    List.all_eq_true, decide_eq_true_eq, forall_and, hfree]
  tauto

theorem not_isSilent_of_isPlain {name : String} (h : isPlain name) : isSilent name = false := by
  obtain ⟨hempty, -, -, hdot, -⟩ := (isPlain_iff name).1 h
  simp [isSilent, hempty, hdot]

theorem not_isAbsolute {name : String} (h : '/' ∉ name.toList) : isAbsolute name = false := by
  rw [isAbsolute, decide_eq_false_iff_not]
  exact fun hhead => h (List.mem_of_head? hhead)

theorem pieces_of_notMem {name : String} (h : '/' ∉ name.toList) : pieces name = [name] := by
  rw [pieces, split, splitFrom_of_notMem [] h]
  simp

theorem join_eq (base : String) {name : String} (h : '/' ∉ name.toList) : join base name =
    if base.isEmpty ∨ base.toList.getLast? = some '/' then base ++ name else base ++ "/" ++ name := by
  rw [join, not_isAbsolute h, if_neg Bool.false_ne_true]

theorem notMem_join {base name : String} {c : Char} (h : '/' ∉ name.toList)
    (hb : c ∉ base.toList) (hn : c ∉ name.toList) (hc : c ≠ '/') : c ∉ (join base name).toList := by
  rw [join_eq base h]
  split <;> simp [hb, hn, hc]

theorem mem_join {base name : String} {c : Char} (h : '/' ∉ name.toList)
    (hc : c ∈ base.toList ∨ c ∈ name.toList) : c ∈ (join base name).toList := by
  rw [join_eq base h]
  split <;> rcases hc with hc | hc <;> simp [hc]

theorem join_ne_empty (base : String) {name : String} (h : name ≠ "") : join base name ≠ "" := by
  unfold join
  split_ifs <;> simp [h]

theorem utf8ByteSize_le_join (base : String) {name : String} (h : '/' ∉ name.toList) :
    base.utf8ByteSize ≤ (join base name).utf8ByteSize := by
  rw [join_eq base h]
  split <;> simp only [String.utf8ByteSize_append] <;> omega

theorem utf8ByteSize_join_of_eq (base : String) {name other : String} (h : '/' ∉ name.toList)
    (h' : '/' ∉ other.toList) (he : name.utf8ByteSize = other.utf8ByteSize) :
    (join base name).utf8ByteSize = (join base other).utf8ByteSize := by
  rw [join_eq base h, join_eq base h']
  split <;> simp only [String.utf8ByteSize_append, he]

theorem pieces_join {base name : String} (hb : base ≠ "") (hn : '/' ∉ name.toList) :
    ∃ front rest, pieces base = front ++ rest ∧ (rest = [] ∨ rest = [""]) ∧
      pieces (join base name) = front ++ [name] := by
  have hname : split '/' name.toList = [name.toList] := splitFrom_of_notMem [] hn
  have hempty : base.isEmpty = false := by simpa using hb
  rw [join_eq base hn, hempty]
  by_cases hlast : base.toList.getLast? = some '/'
  · obtain ⟨cs, hcs⟩ := List.getLast?_eq_some_iff.1 hlast
    refine ⟨(split '/' cs).map String.ofList, [""], ?_, .inr rfl, ?_⟩
    · rw [pieces, hcs, split, splitFrom_append_sep]
      simp [split, splitFrom]
    · rw [if_pos (.inr hlast), pieces, String.toList_append, hcs, List.append_assoc, List.singleton_append, split,
        splitFrom_append_sep, hname]
      simp [split]
  · refine ⟨pieces base, [], (List.append_nil _).symm, .inl rfl, ?_⟩
    have hslash : ("/" : String).toList = ['/'] := rfl
    rw [if_neg (by simp [hlast]), pieces, String.toList_append, String.toList_append, hslash,
      List.append_assoc, List.singleton_append, split, splitFrom_append_sep, hname]
    simp [pieces, split]

theorem isAbsolute_join {base name : String} (hb : base ≠ "") (hn : '/' ∉ name.toList) :
    isAbsolute (join base name) = isAbsolute base := by
  obtain ⟨c, cs, hbase⟩ := List.exists_cons_of_ne_nil (show base.toList ≠ [] by simpa using hb)
  rw [join_eq base hn]
  unfold isAbsolute
  split <;> simp [hbase]

theorem isAbsolute_join_of_base {base : String} (h : isAbsolute base) (path : String) :
    isAbsolute (join base path) := by
  obtain ⟨cs, hbase⟩ := List.head?_eq_some_iff.1 (of_decide_eq_true h)
  unfold join
  split_ifs with hpath hjoined
  · exact hpath
  · simp [isAbsolute, hbase]
  · simp [isAbsolute, hbase]

end Path

end CausalWork
