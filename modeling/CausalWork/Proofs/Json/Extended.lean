import CausalWork.Proofs.Json.Document
import CausalWork.Text.Blank
import Mathlib.Data.List.DropRight

namespace CausalWork.Json

open Text

variable {cs rest : List Char}

theorem skipSpace_append_brace (cs t : List Char) :
    skipSpace (cs ++ '{' :: t) = skipSpace cs ++ '{' :: t := by
  rw [skipSpace, List.dropWhile_append]
  split
  case isTrue h =>
    rw [skipSpace, List.isEmpty_iff.1 h]
    exact skipSpace_cons (by decide) t
  case isFalse => rfl

theorem append_brace_ne_cons {c : Char} (hc : c ≠ '{') {front : List Char}
    (h : ∀ after, front = c :: after → False) (t after : List Char) :
    front ++ '{' :: t ≠ c :: after := by
  intro he
  cases front with
  | nil => exact hc (List.cons.inj he).1.symm
  | cons d front => exact h front (congrArg (· :: front) (List.cons.inj he).1)

theorem unquote?_append {ns : List Nat} (h : unquote? cs = some (ns, rest)) (t : List Char) :
    unquote? (cs ++ t) = some (ns, rest ++ t) := by
  fun_induction unquote? cs generalizing ns rest with
  | case1 => cases h
  | case2 rest =>
      cases h
      simp [unquote?]
  | case3 a b c d rest ih =>
      obtain ⟨n, hn, h⟩ := Option.bind_eq_some_iff.1 h
      obtain ⟨told, ht, h⟩ := Option.bind_eq_some_iff.1 h
      cases h
      simp [unquote?, hn, ih ht, prepend]
  | case4 c rest hu ih =>
      obtain ⟨n, hn, h⟩ := Option.bind_eq_some_iff.1 h
      obtain ⟨told, ht, h⟩ := Option.bind_eq_some_iff.1 h
      cases h
      have hc : c ≠ 'u' := by
        rintro rfl
        cases hn
      simp [unquote?, hc, hn, ih ht, prepend]
  | case5 c rest hq hb hs hc => cases h
  | case6 c rest hq hb hs hc ih =>
      obtain ⟨told, ht, h⟩ := Option.bind_eq_some_iff.1 h
      cases h
      have hc' : c ≠ '\\' := by
        rintro rfl
        cases rest with
        | nil => cases ht
        | cons d rest => exact hs d rest rfl rfl
      simp [unquote?, hc', hc, ih ht, prepend]

theorem digits_append_brace (cs t : List Char) :
    digits (cs ++ '{' :: t) = ((digits cs).1, (digits cs).2 ++ '{' :: t) := by
  rw [digits, digits, List.span_eq_takeWhile_dropWhile, List.span_eq_takeWhile_dropWhile]
  induction cs with
  | nil => rfl
  | cons c cs ih =>
      rw [List.cons_append, List.takeWhile_cons, List.dropWhile_cons, List.takeWhile_cons,
        List.dropWhile_cons]
      cases c.isDigit
      · rfl
      · simpa using ih

theorem whole?_append_brace {ds : List Char} (h : whole? cs = some (ds, rest)) (t : List Char) :
    whole? (cs ++ '{' :: t) = some (ds, rest ++ '{' :: t) := by
  unfold whole? at h ⊢
  rw [digits_append_brace]
  generalize digits cs = found at h
  obtain ⟨front, left⟩ := found
  split at h
  · cases h
  · cases h
  · cases h
    split <;> simp_all

theorem isDigit_of_whole? {c : Char} {told : List Char × List Char}
    (h : whole? (c :: cs) = some told) : c.isDigit := by
  by_contra hc
  have hd : digits (c :: cs) = ([], c :: cs) := by simp [digits, List.span_eq_takeWhile_dropWhile, hc]
  rw [whole?, hd] at h
  cases h

theorem fraction?_append_brace {fs : List Char} (h : fraction? cs = some (fs, rest))
    (t : List Char) : fraction? (cs ++ '{' :: t) = some (fs, rest ++ '{' :: t) := by
  unfold fraction? at h
  split at h
  case h_1 after =>
    rw [List.cons_append, fraction?, digits_append_brace]
    generalize digits after = found at h
    obtain ⟨front, left⟩ := found
    split at h
    · cases h
    · cases h
      split <;> simp_all
  case h_2 hdot =>
    cases h
    unfold fraction?
    split
    case h_1 heq => exact absurd heq (append_brace_ne_cons (by decide) hdot t _)
    case h_2 => rfl

theorem exponentSign_append_brace (cs t : List Char) : exponentSign (cs ++ '{' :: t) =
    ((exponentSign cs).1, (exponentSign cs).2 ++ '{' :: t) := by
  cases cs with
  | nil => rfl
  | cons c cs =>
      unfold exponentSign
      rw [List.cons_append]
      split <;> simp_all

theorem exponent?_append_brace {es : List Char} {n : Int} (h : exponent? cs = some (es, n, rest))
    (t : List Char) : exponent? (cs ++ '{' :: t) = some (es, n, rest ++ '{' :: t) := by
  cases cs with
  | nil =>
      cases h
      rfl
  | cons c cs =>
      rw [List.cons_append]
      unfold exponent? at h ⊢
      by_cases hc : c = 'e' ∨ c = 'E'
      · simp only [if_pos hc, exponentSign_append_brace, digits_append_brace] at h ⊢
        generalize exponentSign cs = signed at h
        obtain ⟨sign, after⟩ := signed
        generalize digits after = found at h
        obtain ⟨front, left⟩ := found
        cases front with
        | nil => cases h
        | cons d front =>
            cases h
            rfl
      · simp only [if_neg hc] at h ⊢
        cases h
        rfl

theorem magnitude?_append_brace {sign : List Char} {j : Json}
    (h : magnitude? sign cs = some (j, rest)) (t : List Char) :
    magnitude? sign (cs ++ '{' :: t) = some (j, rest ++ '{' :: t) := by
  unfold magnitude? at h ⊢
  obtain ⟨⟨ds, rest₁⟩, hw, h⟩ := Option.bind_eq_some_iff.1 h
  obtain ⟨⟨fs, rest₂⟩, hf, h⟩ := Option.bind_eq_some_iff.1 h
  obtain ⟨⟨es, n, rest₃⟩, he, h⟩ := Option.bind_eq_some_iff.1 h
  simp only [whole?_append_brace hw, fraction?_append_brace hf, exponent?_append_brace he,
    Option.bind_eq_bind, Option.bind_some]
  dsimp only at h
  split_ifs at h ⊢ <;> cases h <;> rfl

theorem number?_cons {c : Char} (h : c ≠ '-') (cs : List Char) :
    number? (c :: cs) = magnitude? [] (c :: cs) := by
  unfold number?
  split
  case h_1 heq => exact absurd (List.cons.inj heq).1 h
  case h_2 => rfl

theorem number?_append_brace {j : Json} (h : number? cs = some (j, rest)) (t : List Char) :
    number? (cs ++ '{' :: t) = some (j, rest ++ '{' :: t) ∧
      ∃ c cs', cs = c :: cs' ∧ (c.isDigit ∨ c = '-') := by
  cases cs with
  | nil => cases h
  | cons c cs =>
      by_cases hc : c = '-'
      · subst hc
        exact ⟨magnitude?_append_brace h t, '-', cs, rfl, .inr rfl⟩
      · rw [number?_cons hc] at h
        rw [List.cons_append, number?_cons hc]
        obtain ⟨told, hw, -⟩ := Option.bind_eq_some_iff.1 h
        exact ⟨magnitude?_append_brace h t, c, cs, rfl, .inl (isDigit_of_whole? hw)⟩

theorem value?_eq_number? (fuel : Nat) {c : Char} (hs : isSpace c = false)
    (hc : c ∉ ['n', 't', 'f', '"', '[', '{']) (cs : List Char) :
    value? (fuel + 1) (c :: cs) = number? (c :: cs) := by
  rw [value?, skipSpace_cons hs]
  split <;> simp_all

theorem value?_number (fuel : Nat) {c : Char} (h : c.isDigit ∨ c = '-') (cs : List Char) :
    value? (fuel + 1) (c :: cs) = number? (c :: cs) := by
  have hs : isSpace c = false := by
    rcases h with h | rfl
    · exact isSpace_of_isDigit h
    · decide
  refine value?_eq_number? fuel hs (fun hc => ?_) cs
  revert h
  simp only [List.mem_cons, List.not_mem_nil, or_false] at hc
  rcases hc with rfl | rfl | rfl | rfl | rfl | rfl <;> decide

theorem skipSpace_append {front : List Char} (h : ∀ c ∈ front, isSpace c) (cs : List Char) :
    skipSpace (front ++ cs) = skipSpace cs :=
  List.dropWhile_append_of_pos h

theorem skipSpace_skipSpace (cs : List Char) : skipSpace (skipSpace cs) = skipSpace cs :=
  List.dropWhile_idempotent isSpace cs

theorem value?_skipSpace (fuel : Nat) (cs : List Char) :
    value? fuel (skipSpace cs) = value? fuel cs := by
  cases fuel with
  | zero => rfl
  | succ fuel => rw [value?, value?, skipSpace_skipSpace]

theorem value?_bracket (fuel : Nat) (cs : List Char) : value? (fuel + 1) ('[' :: cs) =
    match skipSpace cs with
    | ']' :: rest => some (array [], rest)
    | _ => (items? fuel cs).map fun (items, rest) => (array items, rest) := by
  rw [value?, skipSpace_cons (by decide)]
  rfl

theorem value?_brace (fuel : Nat) (cs : List Char) : value? (fuel + 1) ('{' :: cs) =
    match skipSpace cs with
    | '}' :: rest => some (object [], rest)
    | _ => (members? fuel cs).map fun (members, rest) => (ofMembers members, rest) := by
  rw [value?, skipSpace_cons (by decide)]
  rfl

mutual

/-- A value that was read at the front of a text is read there too when an opening brace follows the
text, with any more steps. -/
theorem value?_append_brace {cs rest : List Char} {fuel more : Nat} {j : Json} (hm : fuel ≤ more)
    (h : value? fuel cs = some (j, rest)) (t : List Char) :
    value? more (cs ++ '{' :: t) = some (j, rest ++ '{' :: t) := by
  cases fuel with
  | zero => cases h
  | succ fuel =>
    cases more with
    | zero => cases hm
    | succ more =>
      replace hm := Nat.le_of_succ_le_succ hm
      rw [← value?_skipSpace, skipSpace_append_brace]
      rw [value?] at h
      generalize skipSpace cs = front at h ⊢
      -- The cases are those of the reader: nothing, three names, a text, an array, an object, a number.
      split at h
      case h_1 => cases h
      case h_2 => cases h; simp [value?, skipSpace, isSpace]
      case h_3 => cases h; simp [value?, skipSpace, isSpace]
      case h_4 => cases h; simp [value?, skipSpace, isSpace]
      case h_5 after =>
        obtain ⟨⟨ns, left⟩, hu, he⟩ := Option.map_eq_some_iff.1 h
        cases he
        simp [value?, skipSpace, isSpace, unquote?_append hu]
      case h_6 after =>
        rw [List.cons_append, value?_bracket, skipSpace_append_brace]
        split at h
        case h_1 hs =>
          cases h
          rw [hs]
          rfl
        case h_2 hs =>
          obtain ⟨⟨items, left⟩, hi, he⟩ := Option.map_eq_some_iff.1 h
          cases he
          split
          case h_1 heq => exact absurd heq (append_brace_ne_cons (by decide) hs t _)
          case h_2 => rw [items?_append_brace hm hi]; rfl
      case h_7 after =>
        rw [List.cons_append, value?_brace, skipSpace_append_brace]
        split at h
        case h_1 hs =>
          cases h
          rw [hs]
          rfl
        case h_2 hs =>
          obtain ⟨⟨members, left⟩, hi, he⟩ := Option.map_eq_some_iff.1 h
          cases he
          split
          case h_1 heq => exact absurd heq (append_brace_ne_cons (by decide) hs t _)
          case h_2 => rw [members?_append_brace hm hi]; rfl
      case h_8 =>
        obtain ⟨hn, c, front, rfl, hc⟩ := number?_append_brace h t
        rw [List.cons_append, value?_number more hc]
        exact hn

theorem items?_append_brace {cs rest : List Char} {fuel more : Nat} {items : List Json}
    (hm : fuel ≤ more) (h : items? fuel cs = some (items, rest)) (t : List Char) :
    items? more (cs ++ '{' :: t) = some (items, rest ++ '{' :: t) := by
  cases fuel with
  | zero => cases h
  | succ fuel =>
    cases more with
    | zero => cases hm
    | succ more =>
      replace hm := Nat.le_of_succ_le_succ hm
      rw [items?] at h ⊢
      obtain ⟨⟨item, left⟩, hv, h⟩ := Option.bind_eq_some_iff.1 h
      simp only [value?_append_brace hm hv, Option.bind_eq_bind, Option.bind_some,
        skipSpace_append_brace]
      dsimp only at h
      generalize skipSpace left = front at h ⊢
      split at h
      case h_1 after =>
        obtain ⟨⟨others, left⟩, hi, h⟩ := Option.bind_eq_some_iff.1 h
        cases h
        simp [items?_append_brace hm hi]
      case h_2 after =>
        cases h
        rfl
      case h_3 => cases h

theorem members?_append_brace {cs rest : List Char} {fuel more : Nat}
    {members : List (Option String × Json)} (hm : fuel ≤ more)
    (h : members? fuel cs = some (members, rest)) (t : List Char) :
    members? more (cs ++ '{' :: t) = some (members, rest ++ '{' :: t) := by
  cases fuel with
  | zero => cases h
  | succ fuel =>
    cases more with
    | zero => cases hm
    | succ more =>
      replace hm := Nat.le_of_succ_le_succ hm
      rw [members?] at h ⊢
      rw [skipSpace_append_brace]
      generalize skipSpace cs = front at h ⊢
      split at h
      case h_1 after =>
        obtain ⟨⟨name, left⟩, hu, h⟩ := Option.bind_eq_some_iff.1 h
        simp only [List.cons_append, unquote?_append hu, Option.bind_eq_bind, Option.bind_some,
          skipSpace_append_brace]
        dsimp only at h
        generalize skipSpace left = front at h ⊢
        split at h
        case h_1 after =>
          obtain ⟨⟨value, left⟩, hv, h⟩ := Option.bind_eq_some_iff.1 h
          simp only [List.cons_append, value?_append_brace hm hv, Option.bind_some,
            skipSpace_append_brace]
          dsimp only at h
          generalize skipSpace left = front at h ⊢
          split at h
          case h_1 after =>
            obtain ⟨⟨others, left⟩, hi, h⟩ := Option.bind_eq_some_iff.1 h
            cases h
            simp [members?_append_brace hm hi]
          case h_2 after =>
            cases h
            rfl
          case h_3 => cases h
        case h_2 => cases h
      case h_2 => cases h

end

theorem parse?_append_brace {s : String} {j : Json} (h : parse? s = some j) (t : List Char) :
    parse? (s ++ String.ofList ('{' :: t)) = none := by
  unfold parse? at h ⊢
  dsimp only at h ⊢
  split at h
  case h_1 rest hv =>
    have hlong : 2 * s.toList.length + 2 ≤
        2 * (s ++ String.ofList ('{' :: t)).toList.length + 2 := by
      rw [String.toList_append, List.length_append]
      omega
    have hv' := value?_append_brace hlong hv t
    rw [String.toList_append, String.toList_ofList] at hv' ⊢
    rw [hv']
    dsimp only
    rw [skipSpace_append_brace, if_neg (by simp)]
  case h_2 => cases h

theorem parse?_spaces_append {front : List Char} (hs : ∀ c ∈ front, isSpace c) {j : Json}
    (h : j.isPlain) : parse? (String.ofList front ++ j.compact) = some j := by
  have hv (fuel : Nat) (hf : 2 * (chars j).length ≤ fuel) :
      value? fuel (front ++ chars j) = some (j, []) := by
    rw [← value?_skipSpace, skipSpace_append hs, value?_skipSpace, ← List.append_nil (chars j)]
    exact value?_chars fuel h hf endsValue_nil
  simp only [parse?, compact, String.toList_append, String.toList_ofList]
  rw [hv _ (by simp; omega)]
  rfl

theorem isBlank_of_isSpace {c : Char} (h : isSpace c) : isBlank c := by
  simp only [isSpace, Bool.or_eq_true, decide_eq_true_eq] at h
  rcases h with ((rfl | rfl) | rfl) | rfl <;> decide

theorem isDigit_eq_false_of_isBlank {c : Char} (h : isBlank c) : c.isDigit = false := by
  by_contra hd
  simp only [Bool.not_eq_false, Char.isDigit_iff_toNat, Char.reduceToNat] at hd
  simp only [isBlank, blankRanges, List.any_cons, List.any_nil, Bool.or_false, Bool.or_eq_true,
    Bool.and_eq_true, decide_eq_true_eq] at h
  omega

theorem value?_blank (fuel : Nat) {c : Char} (hb : isBlank c) (hs : isSpace c = false)
    (cs : List Char) : value? fuel (c :: cs) = none := by
  have hc : c ∉ ['-', 'n', 't', 'f', '"', '[', '{'] := by
    intro hc
    revert hb
    simp only [List.mem_cons, List.not_mem_nil, or_false] at hc
    rcases hc with rfl | rfl | rfl | rfl | rfl | rfl | rfl <;> decide
  rw [List.mem_cons, not_or] at hc
  obtain ⟨hminus, hc⟩ := hc
  have hw : whole? (c :: cs) = none := by
    simp [whole?, digits, List.span_eq_takeWhile_dropWhile, isDigit_eq_false_of_isBlank hb]
  cases fuel with
  | zero => rfl
  | succ fuel =>
      rw [value?_eq_number? fuel hs hc, number?_cons hminus, magnitude?, hw]
      rfl

theorem parse?_blanks_append {front : List Char} (hb : ∀ c ∈ front, isBlank c)
    (hs : ¬ ∀ c ∈ front, isSpace c) (t : String) : parse? (String.ofList front ++ t) = none := by
  obtain ⟨c, after, hc⟩ : ∃ c after, front.dropWhile isSpace = c :: after :=
    List.exists_cons_of_ne_nil fun h => hs (List.dropWhile_eq_nil_iff.1 h)
  have hmem : c ∈ front := (List.dropWhile_sublist isSpace).subset (by simp [hc])
  have hspace : isSpace c = false := by
    simpa [hc] using List.head_dropWhile_not isSpace (l := front) (by simp [hc])
  have hv (fuel : Nat) : value? fuel (front ++ t.toList) = none := by
    have hskip : skipSpace (front ++ t.toList) = c :: (after ++ t.toList) := by
      rw [skipSpace, List.dropWhile_append, hc]
      rfl
    rw [← value?_skipSpace, hskip]
    exact value?_blank fuel (hb c hmem) hspace _
  simp only [parse?, String.toList_append, String.toList_ofList, hv]

end CausalWork.Json
