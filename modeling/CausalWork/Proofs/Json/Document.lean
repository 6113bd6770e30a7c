import CausalWork.Proofs.Json.Numeral
import CausalWork.Proofs.Json.Quoted

namespace CausalWork.Json

open Text

mutual

/-- Whether all numbers in a document are naturals of 64 bits at most, and nothing in it is flawed.
-/
def isPlain : Json → Bool
  | natural n => n < UInt64.size
  | array items => itemsPlain items
  | object members => membersPlain members
  | decimal _ => false
  | flawed => false
  | null => true
  | bool _ => true
  | text _ => true

def itemsPlain : List Json → Bool
  | [] => true
  | item :: items => isPlain item && itemsPlain items

def membersPlain : List (String × Json) → Bool
  | [] => true
  | (_, value) :: members => isPlain value && membersPlain members

end

theorem skipSpace_cons {c : Char} (h : isSpace c = false) (cs : List Char) :
    skipSpace (c :: cs) = c :: cs := by
  simp [skipSpace, h]

theorem value?_quote (fuel : Nat) (s : String) (rest : List Char) :
    value? (fuel + 1) (quote s ++ rest) = some (text s, rest) := by
  simp [value?, quote, skipSpace_cons (show isSpace '"' = false by decide),
    unquote?_flatMap_escape, string?_map_toNat]

theorem isSpace_of_isDigit {c : Char} (h : c.isDigit) : isSpace c = false := by
  simp only [isSpace, Bool.or_eq_false_iff, decide_eq_false_iff_not]
  refine ⟨⟨⟨?_, ?_⟩, ?_⟩, ?_⟩ <;> (rintro rfl; exact absurd h (by decide))

theorem value?_decimal (fuel : Nat) {n : Nat} (h : n < UInt64.size) {rest : List Char}
    (hr : EndsValue rest) : value? (fuel + 1) (Text.decimal n ++ rest) = some (natural n, rest) := by
  obtain ⟨c, cs, hc⟩ := List.exists_cons_of_ne_nil (decimal_ne_nil n)
  have hd : c.isDigit := isDigit_of_mem_decimal n c (by simp [hc])
  have hv : value? (fuel + 1) (Text.decimal n ++ rest) = number? (Text.decimal n ++ rest) := by
    rw [hc, List.cons_append, value?, skipSpace_cons (isSpace_of_isDigit hd)]
    split <;> simp_all
  rw [hv, number?_decimal h hr]

theorem chars_eq_cons {j : Json} (h : j.isPlain) :
    ∃ c cs, chars j = c :: cs ∧ isSpace c = false ∧ c ≠ ']' := by
  cases j with
  | null => exact ⟨_, _, rfl, by decide, by decide⟩
  | bool b => cases b <;> exact ⟨_, _, rfl, by decide, by decide⟩
  | natural n =>
      obtain ⟨c, cs, hc⟩ := List.exists_cons_of_ne_nil (decimal_ne_nil n)
      have hd : c.isDigit := isDigit_of_mem_decimal n c (by simp [hc])
      exact ⟨c, cs, by rw [chars, hc], isSpace_of_isDigit hd, by rintro rfl; exact absurd hd (by decide)⟩
  | decimal => cases h
  | text s => exact ⟨_, _, rfl, by decide, by decide⟩
  | array items => cases items <;> exact ⟨_, _, rfl, by decide, by decide⟩
  | object members => cases members <;> exact ⟨_, _, rfl, by decide, by decide⟩
  | flawed => cases h

theorem endsValue_itemChars (items : List Json) (rest : List Char) :
    EndsValue (itemChars items ++ ']' :: rest) := by
  cases items <;> exact endsValue_cons (by simp) _

theorem endsValue_memberChars (members : List (String × Json)) (rest : List Char) :
    EndsValue (memberChars members ++ '}' :: rest) := by
  cases members <;> exact endsValue_cons (by simp) _

theorem value?_array (fuel : Nat) {c : Char} (hs : isSpace c = false) (hb : c ≠ ']')
    (cs : List Char) : value? (fuel + 1) ('[' :: c :: cs) =
      (items? fuel (c :: cs)).map fun (items, rest) => (array items, rest) := by
  simp [value?, skipSpace_cons (show isSpace '[' = false by decide), skipSpace_cons hs, hb]

theorem value?_object (fuel : Nat) (cs : List Char) : value? (fuel + 1) ('{' :: '"' :: cs) =
    (members? fuel ('"' :: cs)).map fun (members, rest) => (ofMembers members, rest) := by
  simp [value?, skipSpace, isSpace]

def named (members : List (String × Json)) : List (Option String × Json) :=
  members.map fun m => (some m.1, m.2)

theorem ofMembers_named (members : List (String × Json)) :
    ofMembers (named members) = object members := by
  have h : (named members).mapM (fun m => m.1.map (·, m.2)) = some members := by
    induction members with
    | nil => rfl
    | cons m members ih => simp_all [named]
  rw [ofMembers, h]

mutual

/-- What is written is read back, whatever goes on after it. Each step into a document leaves at
least one character behind, which pays for two steps. -/
theorem value?_chars (fuel : Nat) {j : Json} (h : j.isPlain) (hf : 2 * (chars j).length ≤ fuel)
    {rest : List Char} (hr : EndsValue rest) : value? fuel (chars j ++ rest) = some (j, rest) := by
  cases fuel with
  | zero =>
      obtain ⟨c, cs, hc, -⟩ := chars_eq_cons h
      simp [hc] at hf
  | succ fuel =>
    cases j with
    | null => simp [chars, value?, skipSpace, isSpace]
    | bool b => cases b <;> simp [chars, literal, value?, skipSpace, isSpace]
    | natural n => exact value?_decimal fuel (by simpa [isPlain] using h) hr
    | decimal => cases h
    | text s => exact value?_quote fuel s rest
    | array items =>
        cases items with
        | nil => simp [chars, value?, skipSpace, isSpace]
        | cons item items =>
            rw [isPlain, itemsPlain, Bool.and_eq_true] at h
            obtain ⟨c, cs, hc, hs, hb⟩ := chars_eq_cons h.1
            have hi := items?_chars fuel h.1 h.2 (by simp [chars] at hf; omega) rest
            rw [List.append_assoc, hc, List.cons_append] at hi
            simp [chars, hc, value?_array fuel hs hb, hi]
    | object members =>
        cases members with
        | nil => simp [chars, value?, skipSpace, isSpace]
        | cons m members =>
            obtain ⟨name, value⟩ := m
            rw [isPlain, membersPlain, Bool.and_eq_true] at h
            have hm := members?_chars fuel name h.1 h.2 (by simp [chars] at hf; omega) rest
            simp only [quote, List.cons_append, List.append_assoc, List.nil_append] at hm
            simp [chars, quote, value?_object, hm, ofMembers_named]
    | flawed => cases h

theorem items?_chars (fuel : Nat) {item : Json} {items : List Json} (hi : item.isPlain)
    (hs : itemsPlain items) (hf : 2 * ((chars item).length + (itemChars items).length) < fuel)
    (rest : List Char) :
    items? fuel (chars item ++ itemChars items ++ ']' :: rest) = some (item :: items, rest) := by
  cases fuel with
  | zero => omega
  | succ fuel =>
    have hv := value?_chars fuel hi (by omega) (endsValue_itemChars items rest)
    rw [List.append_assoc, items?, hv]
    cases items with
    | nil => simp [itemChars, skipSpace, isSpace]
    | cons next items =>
        rw [itemsPlain, Bool.and_eq_true] at hs
        have hn := items?_chars fuel hs.1 hs.2 (by simp [itemChars] at hf; omega) rest
        rw [List.append_assoc] at hn
        simp [itemChars, skipSpace_cons (show isSpace ',' = false by decide), hn]

theorem members?_chars (fuel : Nat) (name : String) {value : Json}
    {members : List (String × Json)} (hv : value.isPlain) (hs : membersPlain members)
    (hf : 2 * ((chars value).length + (memberChars members).length) < fuel) (rest : List Char) :
    members? fuel (quote name ++ ':' :: chars value ++ memberChars members ++ '}' :: rest) =
      some (named ((name, value) :: members), rest) := by
  cases fuel with
  | zero => omega
  | succ fuel =>
    have hj := value?_chars fuel hv (by omega) (endsValue_memberChars members rest)
    have hq : skipSpace ('"' :: (name.toList.flatMap escape ++ '"' :: ':' :: (chars value ++
        (memberChars members ++ '}' :: rest)))) = _ := skipSpace_cons (by decide) _
    simp only [quote, List.cons_append, List.append_assoc, List.nil_append]
    rw [members?, hq]
    simp only [unquote?_flatMap_escape, Option.bind_eq_bind, Option.bind_some,
      skipSpace_cons (show isSpace ':' = false by decide), hj, string?_map_toNat]
    cases members with
    | nil => simp [memberChars, skipSpace, isSpace, named]
    | cons m members =>
        obtain ⟨next, other⟩ := m
        rw [membersPlain, Bool.and_eq_true] at hs
        have hn := members?_chars fuel next hs.1 hs.2 (by simp [memberChars] at hf; omega) rest
        simp only [quote, List.cons_append, List.append_assoc, List.nil_append] at hn
        simp [memberChars, quote, skipSpace_cons (show isSpace ',' = false by decide), hn, named]

end

/-- A document is the only one that its text writes. -/
theorem parse?_compact {j : Json} (h : j.isPlain) : parse? j.compact = some j := by
  have hv := value?_chars (2 * (chars j).length + 2) h (by omega) endsValue_nil
  rw [List.append_nil] at hv
  simp [parse?, compact, hv, skipSpace]

theorem printable_of_isDigit {c : Char} (h : c.isDigit) : 32 ≤ c.toNat := by
  rw [Char.isDigit, Bool.and_eq_true, decide_eq_true_eq] at h
  have hzero : 32 ≤ '0'.val.toNat := by decide
  exact Nat.le_trans hzero (UInt32.le_iff_toNat_le.1 h.1)

mutual

theorem printable_chars {j : Json} (h : j.isPlain) : ∀ c ∈ chars j, 32 ≤ c.toNat := by
  cases j with
  | null => simp [chars]
  | bool b => cases b <;> simp [chars, literal]
  | natural n => exact fun c hc => printable_of_isDigit (isDigit_of_mem_decimal n c hc)
  | decimal => cases h
  | text s => exact printable_quote s
  | array items =>
      cases items with
      | nil => simp [chars]
      | cons item items =>
          rw [isPlain, itemsPlain, Bool.and_eq_true] at h
          have hi := printable_chars h.1
          have hs := printable_itemChars h.2
          simp only [chars, List.cons_append, List.forall_mem_cons, List.forall_mem_append]
          exact ⟨by decide, ⟨hi, hs⟩, by simp⟩
  | object members =>
      cases members with
      | nil => simp [chars]
      | cons m members =>
          rw [isPlain, membersPlain, Bool.and_eq_true] at h
          have hv := printable_chars h.1
          have hs := printable_memberChars h.2
          simp only [chars, List.cons_append, List.forall_mem_cons, List.forall_mem_append]
          exact ⟨by decide, ⟨⟨printable_quote _, by decide, hv⟩, hs⟩, by simp⟩
  | flawed => cases h

theorem printable_itemChars {items : List Json} (h : itemsPlain items) :
    ∀ c ∈ itemChars items, 32 ≤ c.toNat := by
  cases items with
  | nil => simp [itemChars]
  | cons item items =>
      rw [itemsPlain, Bool.and_eq_true] at h
      simp only [itemChars, List.cons_append, List.forall_mem_cons, List.forall_mem_append]
      exact ⟨by decide, printable_chars h.1, printable_itemChars h.2⟩

theorem printable_memberChars {members : List (String × Json)} (h : membersPlain members) :
    ∀ c ∈ memberChars members, 32 ≤ c.toNat := by
  cases members with
  | nil => simp [memberChars]
  | cons m members =>
      rw [membersPlain, Bool.and_eq_true] at h
      simp only [memberChars, List.cons_append, List.forall_mem_cons, List.forall_mem_append]
      exact ⟨by decide, ⟨printable_quote _, by decide, printable_chars h.1⟩,
        printable_memberChars h.2⟩

end

theorem newline_notMem_chars {j : Json} (h : j.isPlain) : '\n' ∉ chars j :=
  fun hn => absurd (printable_chars h _ hn) (by decide)

end CausalWork.Json
