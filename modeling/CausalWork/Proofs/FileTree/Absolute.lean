import CausalWork.Proofs.FileTree.Walk
import Mathlib.Tactic.MkIffOfInductiveProp

namespace CausalWork

namespace FileTree

/-- A text that an entry of a directory can have for its name. -/
@[mk_iff]
structure IsEntryName (name : String) : Prop where
  not_silent : Path.isSilent name = false
  ne_up : name ≠ ".."
  slash_notMem : '/' ∉ name.toList
  nul_notMem : '\x00' ∉ name.toList
  short : name.utf8ByteSize ≤ longestName

instance (name : String) : Decidable (IsEntryName name) :=
  decidable_of_iff' _ (isEntryName_iff name)

theorem IsEntryName.ne_empty {name : String} (h : IsEntryName name) : name ≠ "" := by
  rintro rfl
  exact absurd h.not_silent (by decide)

variable {t : FileTree} {root : Node} {names place : List String} {name : String}

theorem isAbsolute_absolute (names : List String) : Path.isAbsolute (absolute names) := by
  simp [Path.isAbsolute, absolute]

theorem absolute_cons (hne : names ≠ []) :
    absolute names = String.intercalate "/" ("" :: names) := by
  rw [String.intercalate_cons_of_ne_nil hne, String.empty_append, absolute]

theorem pieces_absolute (h : ∀ name ∈ names, '/' ∉ name.toList) (hne : names ≠ []) :
    Path.pieces (absolute names) = "" :: names := by
  rw [absolute_cons hne, Path.pieces_intercalate _ (List.cons_ne_nil _ _)]
  simpa using h

theorem notMem_absolute {c : Char} (hc : c ≠ '/') (h : ∀ name ∈ names, c ∉ name.toList) :
    c ∉ (absolute names).toList := by
  have hjoined : c ∉ (String.intercalate "/" names).toList := by
    induction names with
    | nil => simp
    | cons name names ih =>
        obtain ⟨hname, hnames⟩ := List.forall_mem_cons.1 h
        by_cases hne : names = []
        · subst hne
          simpa using hname
        · rw [String.intercalate_cons_of_ne_nil hne]
          simp [-String.toList_intercalate, hname, hc, ih hnames]
  simp [-String.toList_intercalate, absolute, hc, hjoined]

theorem join_absolute (h : ∀ name ∈ names, IsEntryName name) (hname : '/' ∉ name.toList) :
    Path.join (absolute names) name = absolute (names ++ [name]) := by
  have hslash : ∀ other ∈ names, '/' ∉ other.toList := fun other ho => (h other ho).slash_notMem
  rcases List.eq_nil_or_concat' names with rfl | ⟨above, last, rfl⟩
  · rw [Path.join_eq _ hname, if_pos (.inr (by decide))]
    rfl
  · have hne : above ++ [last] ≠ [] := by simp
    have hbase : absolute (above ++ [last]) ≠ "" := by simp [absolute]
    refine Path.pieces_injective ?_
    obtain ⟨front, rest, hfront, hrest, hjoin⟩ := Path.pieces_join hbase hname
    rw [hjoin, pieces_absolute _ (by simp)]
    · rw [pieces_absolute hslash hne] at hfront
      rcases hrest with rfl | rfl
      · rw [List.append_nil] at hfront
        rw [← hfront, List.cons_append]
      · -- The last piece of the base is its last name, which is not empty.
        rw [← List.cons_append] at hfront
        have hlast := (List.append_inj' hfront rfl).2
        exact absurd (List.singleton_inj.1 hlast) (h last (by simp)).ne_empty
    · simpa [hname, or_imp, forall_and] using hslash

theorem parent?_absolute (h : ∀ other ∈ names ++ [name], IsEntryName other) :
    Path.parent? (absolute (names ++ [name])) = some (absolute names) := by
  have hkept {above : List String} (ha : ∀ other ∈ above, IsEntryName other) (hne : above ≠ []) :
      ("" :: above).reverse.dropWhile Path.isSilent = ("" :: above).reverse := by
    obtain ⟨front, last, rfl⟩ := (List.eq_nil_or_concat' above).resolve_left hne
    simp [(ha last (by simp)).not_silent]
  have hpieces : Path.pieces (absolute (names ++ [name])) = "" :: (names ++ [name]) :=
    pieces_absolute (fun other ho => (h other ho).slash_notMem) (by simp)
  have habove : ∀ other ∈ names, IsEntryName other := fun other ho =>
    h other (List.mem_append_left _ ho)
  have htail : ("" :: (names ++ [name])).reverse.tail = ("" :: names).reverse := by simp
  unfold Path.parent?
  rw [hpieces, hkept h (by simp)]
  dsimp only
  rw [htail]
  by_cases hne : names = []
  · subst hne
    have hroot : absolute [] = "/" := rfl
    simp [Path.isSilent, isAbsolute_absolute, hroot]
  · rw [hkept habove hne, absolute_cons hne]
    split
    · simp_all
    · simp

theorem walk_eq_ok_iff {reached : List String} (h : ∀ name ∈ names, IsEntryName name)
    (hplace : (root.find? place.reverse).isSome) : walk root place names = .ok reached ↔
      reached = place.reverse ++ names ∧ (root.find? reached).isSome := by
  induction names generalizing place with
  | nil =>
      rw [walk, List.append_nil, Except.ok.injEq]
      constructor
      · rintro rfl
        exact ⟨rfl, hplace⟩
      · rintro ⟨rfl, -⟩
        rfl
  | cons name names ih =>
      obtain ⟨hname, hnames⟩ := List.forall_mem_cons.1 h
      obtain ⟨n, hn⟩ := Option.isSome_iff_exists.1 hplace
      have hlong : ¬ longestName < name.utf8ByteSize := Nat.not_lt.2 hname.short
      have hbeyond : root.find? (place.reverse ++ name :: names) =
          (n.child? name).bind fun c => c.find? names := by
        rw [Node.find?_append, hn]
        rfl
      rw [walk, hn]
      cases n with
      | file content =>
          simp only [reduceCtorEq, false_iff, not_and]
          rintro rfl
          simp [hbeyond, Node.child?]
      | directory entries =>
          simp only [hname.not_silent, hname.ne_up, hlong, Bool.false_eq_true, if_false]
          cases hentry : entries.lookup name with
          | none =>
              simp only [Option.isSome_none, Bool.false_eq_true, if_false, reduceCtorEq, false_iff,
                not_and]
              rintro rfl
              simp [hbeyond, Node.child?, hentry]
          | some c =>
              have hnext : (root.find? (name :: place).reverse).isSome := by
                rw [List.reverse_cons, Node.find?_append, hn]
                simp [Node.find?, Node.child?, hentry]
              simp only [Option.isSome_some, if_true]
              rw [ih hnames hnext, List.reverse_cons, List.append_assoc, List.singleton_append]

theorem node?_absolute {n : Node} (h : ∀ name ∈ names, IsEntryName name) (hne : names ≠ []) :
    t.node? (absolute names) = .ok n ↔
      (absolute names).utf8ByteSize ≤ longestPath ∧ t.root.find? names = some n := by
  have hslash : ∀ name ∈ names, '/' ∉ name.toList := fun name hm => (h name hm).slash_notMem
  have hnul : '\x00' ∉ (absolute names).toList :=
    notMem_absolute (by decide) fun name hm => (h name hm).nul_notMem
  have hempty : absolute names ≠ "" := by simp [absolute]
  have horigin : t.origin (absolute names) = [] := by
    rw [origin, isAbsolute_absolute, if_pos rfl]
  -- The piece before the first slash is blank, and says no more than that the root is a directory.
  have hwalk (reached : List String) : walk t.root [] ("" :: names) = .ok reached ↔
      reached = names ∧ (t.root.find? reached).isSome := by
    have hroot : t.root.find? ([] : List String).reverse = some t.root := rfl
    rw [walk, hroot]
    cases ht : t.root with
    | file content =>
        obtain ⟨name, below, rfl⟩ := List.exists_cons_of_ne_nil hne
        simp only [reduceCtorEq, false_iff, not_and]
        rintro rfl
        simp [Node.find?, Node.child?]
    | directory entries => exact walk_eq_ok_iff h rfl
  simp only [node?_eq_ok_iff, locate_eq_ok_iff, check_eq_ok_iff, horigin,
    pieces_absolute hslash hne, hwalk]
  constructor
  · rintro ⟨_, ⟨⟨-, hshort, -⟩, rfl, -⟩, hn⟩
    exact ⟨hshort, hn⟩
  · rintro ⟨hshort, hn⟩
    exact ⟨names, ⟨⟨hnul, hshort, hempty⟩, rfl, by rw [hn]; rfl⟩, hn⟩

@[mk_iff]
structure PathExists (root : Node) (names : List String) : Prop where
  short : (absolute names).utf8ByteSize ≤ longestPath
  found : (root.find? names).isSome

instance (root : Node) (names : List String) : Decidable (PathExists root names) :=
  decidable_of_iff' _ (pathExists_iff root names)

theorem isReachable_absolute (h : ∀ name ∈ names, IsEntryName name) (hne : names ≠ []) :
    t.isReachable (absolute names) ↔ PathExists t.root names := by
  have hfound : t.isReachable (absolute names) ↔ ∃ n, t.node? (absolute names) = .ok n := by
    rw [isReachable]
    cases t.node? (absolute names) <;> simp [Except.toOption]
  simp only [hfound, node?_absolute h hne]
  constructor
  · rintro ⟨n, hshort, hn⟩
    exact ⟨hshort, Option.isSome_iff_exists.2 ⟨n, hn⟩⟩
  · rintro ⟨hshort, hfound⟩
    obtain ⟨n, hn⟩ := Option.isSome_iff_exists.1 hfound
    exact ⟨n, hshort, hn⟩

/-- What an absolute path stands for does not depend on where relative paths start. -/
theorem canonical_of_isAbsolute {path : String} (start start' : List String)
    (h : Path.isAbsolute path) :
    (⟨root, start⟩ : FileTree).canonical path = (⟨root, start'⟩ : FileTree).canonical path := by
  simp only [canonical, origin, h, if_true]

end FileTree

end CausalWork
