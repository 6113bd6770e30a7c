import CausalWork.FileTree.Write
import CausalWork.Proofs.FileTree.Walk
import Mathlib.Data.List.DropRight
import Mathlib.Data.Set.Basic

namespace CausalWork

namespace Node

def content? : Node → Option Bytes
  | file content => some content
  | directory _ => none

/-- What is seen at the end of names: nothing, a file with its content, or a directory. -/
def look (n : Node) (names : List String) : Option (Option Bytes) := (n.find? names).map content?

theorem look_directory_nil (entries : List (String × Node)) :
    (directory entries).look [] = some none := rfl

theorem look_directory_cons (entries : List (String × Node)) (name : String)
    (names : List String) : (directory entries).look (name :: names) =
      (entries.lookup name).bind fun n => n.look names := by
  unfold look
  rw [find?, child?]
  cases entries.lookup name <;> rfl

theorem find?_of_look {n : Node} {names : List String} (h : n.look names = some none) :
    ∃ entries, n.find? names = some (.directory entries) := by
  obtain ⟨m, hm, hc⟩ := Option.map_eq_some_iff.1 h
  cases m with
  | file content => cases hc
  | directory entries => exact ⟨entries, hm⟩

theorem isSome_lookup {n : Node} {place : List String} {entries : List (String × Node)}
    (h : n.find? place = some (.directory entries)) (name : String) :
    (entries.lookup name).isSome = (n.look (place ++ [name])).isSome := by
  rw [look, find?_append, h, Option.isSome_map]
  cases hl : entries.lookup name <;> simp [find?, child?, hl]

theorem look_put (n : Node) {place : List String} (name : String) {root : Node}
    (h : root.look place = some none) (names : List String) :
    (n.put (place ++ [name]) root).look names =
      if place ++ [name] <+: names then n.look (names.drop (place.length + 1))
      else root.look names := by
  -- On the way to the place each step looks up a name that is not changed, or the one that is.
  induction place generalizing root names with
  | nil =>
      obtain ⟨entries, he⟩ := find?_of_look h
      cases he
      rw [List.nil_append, put]
      cases names with
      | nil => simp [look_directory_nil]
      | cons other names =>
          rw [look_directory_cons, look_directory_cons]
          by_cases ho : name = other
          · subst ho
            simp [lookup_putEntry_self, put]
          · simp [lookup_putEntry_of_ne _ entries (Ne.symm ho), ho]
  | cons first place ih =>
      cases root with
      | file content => cases h
      | directory entries =>
          rw [look_directory_cons] at h
          obtain ⟨child, hchild, hplace⟩ := Option.bind_eq_some_iff.1 h
          rw [List.cons_append, put, hchild]
          cases names with
          | nil => simp [look_directory_nil]
          | cons other names =>
              rw [look_directory_cons, look_directory_cons]
              by_cases ho : first = other
              · subst ho
                simp [lookup_putEntry_self, ih hplace, hchild, List.cons_prefix_cons]
              · simp [lookup_putEntry_of_ne _ entries (Ne.symm ho), ho, List.cons_prefix_cons]

theorem look_append_eq_none {n : Node} {front : List String} (h : n.look front = none)
    (rest : List String) : n.look (front ++ rest) = none := by
  rw [look, Option.map_eq_none_iff] at h ⊢
  rw [find?_append, h]
  rfl

theorem look_eq_content_iff {n : Node} {names : List String} {content : Bytes} :
    n.look names = some (some content) ↔ n.find? names = some (.file content) := by
  unfold look
  cases n.find? names with
  | none => simp
  | some m => cases m <;> simp [content?]

def Within (n n' : Node) : Prop := ∀ names v, n.look names = some v → n'.look names = some v

end Node

namespace FileTree

/-- A tree that has all that another has, and some directories and empty files besides. -/
structure Grows (t t' : FileTree) (fresh : Set (List String)) : Prop where
  start : t'.start = t.start
  within : t.root.Within t'.root
  added : ∀ names v, t'.root.look names = some v →
    t.root.look names = some v ∨ v = none ∨ v = some [] ∧ names ∈ fresh

variable {t t' t'' : FileTree} {path name : String} {fresh : Set (List String)}

theorem Grows.refl (t : FileTree) (fresh : Set (List String)) : t.Grows t fresh :=
  ⟨rfl, fun _ _ h => h, fun _ _ h => .inl h⟩

theorem Grows.trans (h : t.Grows t' fresh) (h' : t'.Grows t'' fresh) : t.Grows t'' fresh where
  start := h'.start.trans h.start
  within names v hv := h'.within names v (h.within names v hv)
  added names v hv := (h'.added names v hv).elim (h.added names v) .inr

theorem Grows.mono {fresh' : Set (List String)} (h : t.Grows t' fresh) (hsub : fresh ⊆ fresh') :
    t.Grows t' fresh' where
  start := h.start
  within := h.within
  added names v hv := (h.added names v hv).imp_right (Or.imp_right (And.imp_right (@hsub names)))

theorem grows_put {n : Node} {place : List String} (hdir : t.root.look place = some none)
    (hnew : t.root.look (place ++ [name]) = none)
    (hn : n = Node.empty ∨ n = .file [] ∧ place ++ [name] ∈ fresh) :
    t.Grows { t with root := n.put (place ++ [name]) t.root } fresh where
  start := rfl
  within names v hv := by
    have hother : ¬ place ++ [name] <+: names := by
      rintro ⟨rest, rfl⟩
      cases (Node.look_append_eq_none hnew rest).symm.trans hv
    exact (Node.look_put n name hdir names).trans ((if_neg hother).trans hv)
  added names v hv := by
    rw [Node.look_put n name hdir] at hv
    split at hv
    case isTrue hpre =>
      obtain ⟨rest, rfl⟩ := hpre
      rw [List.drop_left' (by simp)] at hv
      right
      rcases hn with rfl | ⟨rfl, hfresh⟩
      · cases rest with
        | nil => exact .inl (Option.some.inj hv).symm
        | cons other rest => cases hv
      · cases rest with
        | nil => exact .inr ⟨(Option.some.inj hv).symm, by simpa using hfresh⟩
        | cons other rest => cases hv
    case isFalse => exact .inl hv

theorem walk_within {root root' : Node} (h : root.Within root') {place names reached : List String}
    (hw : walk root place names = .ok reached) : walk root' place names = .ok reached := by
  induction names generalizing place with
  | nil => exact hw
  | cons name names ih =>
      rw [walk] at hw
      split at hw
      · cases hw
      · cases hw
      · rename_i entries hdir
        have hlook : root.look place.reverse = some none := by
          rw [Node.look, hdir]
          rfl
        obtain ⟨entries', hdir'⟩ := Node.find?_of_look (h place.reverse none hlook)
        rw [walk, hdir']
        dsimp only
        -- A name that is found is found in the larger tree too, so the walk branches alike.
        split_ifs at hw with hsilent hup hlong hthere
        · rw [if_pos hsilent, ih hw]
        · rw [if_neg hsilent, if_pos hup, ih hw]
        · rw [Node.isSome_lookup hdir] at hthere
          obtain ⟨v, hv⟩ := Option.isSome_iff_exists.1 hthere
          have hthere' : (entries'.lookup name).isSome := by
            rw [Node.isSome_lookup hdir', h _ v hv]
            rfl
          rw [if_neg hsilent, if_neg hup, if_neg hlong, if_pos hthere', ih hw]

theorem Grows.locate (h : t.Grows t' fresh) {names : List String}
    (hl : t.locate path = .ok names) : t'.locate path = .ok names := by
  obtain ⟨hc, hw⟩ := locate_eq_ok_iff.1 hl
  refine locate_eq_ok_iff.2 ⟨hc, ?_⟩
  have horigin : t'.origin path = t.origin path := by rw [origin, origin, h.start]
  rw [horigin]
  exact walk_within h.within hw

theorem read_eq_ok_iff {content : Bytes} : t.read path = .ok content ↔
    ∃ names, t.locate path = .ok names ∧ t.root.look names = some (some content) := by
  rw [read_eq_ok_iff_file, node?_eq_ok_iff]
  simp only [Node.look_eq_content_iff]

theorem Grows.read (h : t.Grows t' fresh) {content : Bytes} (hr : t.read path = .ok content) :
    t'.read path = .ok content := by
  obtain ⟨names, hl, hv⟩ := read_eq_ok_iff.1 hr
  exact read_eq_ok_iff.2 ⟨names, h.locate hl, h.within names _ hv⟩

theorem walk_blanks {root : Node} {place blanks : List String}
    (h : (root.find? place.reverse).isSome) (hb : ∀ blank ∈ blanks, blank.isEmpty) :
    walk root place blanks ≠ .error .notFound := by
  induction blanks with
  | nil => simp [walk]
  | cons blank blanks ih =>
      have hsilent : Path.isSilent blank := by simp [Path.isSilent, hb blank List.mem_cons_self]
      obtain ⟨n, hn⟩ := Option.isSome_iff_exists.1 h
      rw [walk, hn]
      cases n with
      | file content => simp
      | directory entries =>
          dsimp only
          rw [if_pos hsilent]
          exact ih fun other ho => hb other (List.mem_cons_of_mem blank ho)

theorem look_eq_none_of_notFound {front blanks place : List String}
    (hl : t.locate path = .error .notFound) (hc : check path = .ok ())
    (hp : Path.pieces path = front ++ name :: blanks) (hb : ∀ blank ∈ blanks, blank.isEmpty)
    (hw : walk t.root (t.origin path) front = .ok place) (hdir : t.root.look place = some none)
    (hname : ¬ (Path.isSilent name ∨ name = "..")) (hshort : ¬ longestName < name.utf8ByteSize) :
    t.root.look (place ++ [name]) = none := by
  by_contra hsome
  obtain ⟨entries, hentries⟩ := Node.find?_of_look hdir
  have hthere : (entries.lookup name).isSome := by
    rw [Node.isSome_lookup hentries]
    exact Option.isSome_iff_ne_none.2 hsome
  have hfind : (t.root.find? (name :: place.reverse).reverse).isSome := by
    rw [List.reverse_cons, List.reverse_reverse, ← Option.isSome_map (f := Node.content?)]
    exact Option.isSome_iff_ne_none.2 hsome
  refine walk_blanks hfind hb ?_
  rw [locate, hc] at hl
  have hwalk : walk t.root (t.origin path) (Path.pieces path) = .error .notFound := hl
  rw [hp, walk_append, hw] at hwalk
  simp only [Except.bind] at hwalk
  rw [walk, List.reverse_reverse, hentries] at hwalk
  rw [not_or] at hname
  dsimp only at hwalk
  rwa [if_neg hname.1, if_neg hname.2, if_neg hshort, if_pos hthere] at hwalk

theorem target_eq_ok {place : List String} (h : t.target path = .ok (place, name)) :
    check path = .ok () ∧ ∃ front, Path.pieces path = front ++ [name] ∧
      walk t.root (t.origin path) front = .ok place ∧ t.root.look place = some none ∧
      ¬ longestName < name.utf8ByteSize := by
  unfold target at h
  cases hc : check path with
  | error e =>
      rw [hc] at h
      cases h
  | ok u =>
      rw [hc] at h
      cases hw : walk t.root (t.origin path) (Path.pieces path).dropLast with
      | error e =>
          simp only [hw] at h
          cases h
      | ok reached =>
          simp only [hw, bind, Except.bind] at h
          have hlast := List.dropLast_append_getLast (Path.pieces_ne_nil path)
          rw [List.getLast?_eq_getLast_of_ne_nil (Path.pieces_ne_nil path), Option.getD_some] at h
          split at h
          case h_1 entries hdir =>
            split_ifs at h with hlong
            cases h
            exact ⟨rfl, _, hlast.symm, hw, by simp [Node.look, hdir, Node.content?], hlong⟩
          case h_2 => cases h

theorem isAbsolute_of_blanks {other : String} {front blanks : List String}
    (hp : Path.pieces path = front ++ name :: blanks) (hq : Path.pieces other = front ++ [name])
    (hname : name ≠ "") : Path.isAbsolute other = Path.isAbsolute path := by
  rw [Bool.eq_iff_iff, Path.isAbsolute_iff, Path.isAbsolute_iff, hp, hq]
  cases front <;> simp [hname]

theorem makeDirectory_of_notFound (h : t.node? path = .error .notFound) : t.makeDirectory path =
    (t.target (String.intercalate "/" ((Path.pieces path).rdropWhile String.isEmpty))).bind fun found =>
      if Path.isSilent found.2 ∨ found.2 = ".." then .error .notFound
      else .ok { t with root := Node.empty.put (found.1 ++ [found.2]) t.root } := by
  unfold makeDirectory
  rw [h]
  rfl

theorem target_trimmed {place : List String} (hname : name ≠ "")
    (h : t.target (String.intercalate "/" ((Path.pieces path).rdropWhile String.isEmpty)) =
      .ok (place, name)) : ∃ front blanks, Path.pieces path = front ++ name :: blanks ∧
        (∀ blank ∈ blanks, blank.isEmpty) ∧ walk t.root (t.origin path) front = .ok place ∧
        t.root.look place = some none ∧ ¬ longestName < name.utf8ByteSize := by
  set kept := (Path.pieces path).rdropWhile String.isEmpty with hkept
  have hp : Path.pieces path = kept ++ (Path.pieces path).rtakeWhile String.isEmpty :=
    (List.rdropWhile_append_rtakeWhile ..).symm
  have hslash : ∀ piece ∈ kept, '/' ∉ piece.toList := fun piece h =>
    Path.slash_notMem_piece (hp ▸ List.mem_append_left _ h)
  obtain ⟨hc, front, hq, hw, hdir, hshort⟩ := target_eq_ok h
  have hne : kept ≠ [] := by
    intro hnil
    rw [hnil] at hc
    exact absurd rfl (check_eq_ok_iff.1 hc).2.2
  have hlast : kept = front ++ [name] := (Path.pieces_intercalate hslash hne).symm.trans hq
  rw [hlast, List.append_assoc, List.singleton_append] at hp
  have horigin : t.origin (String.intercalate "/" kept) = t.origin path := by
    rw [origin, origin, isAbsolute_of_blanks hp hq hname]
  exact ⟨front, _, hp, fun blank h => List.mem_rtakeWhile_imp h, horigin ▸ hw, hdir, hshort⟩

theorem grows_makeDirectory (h : t.makeDirectory path = .ok t') : t.Grows t' ∅ := by
  have hn : t.node? path = .error .notFound := by
    unfold makeDirectory at h
    split at h
    case h_1 => cases h
    case h_2 hn => exact hn
    case h_3 => cases h
  rw [makeDirectory_of_notFound hn] at h
  cases ht : t.target (String.intercalate "/" ((Path.pieces path).rdropWhile String.isEmpty)) with
  | error e =>
      rw [ht] at h
      cases h
  | ok found =>
      obtain ⟨place, name⟩ := found
      simp only [ht, Except.bind] at h
      split_ifs at h with hname
      cases h
      have hnonempty : name ≠ "" := by
        rintro rfl
        exact hname (.inl rfl)
      obtain ⟨front, blanks, hp, hb, hw, hdir, hshort⟩ := target_trimmed hnonempty ht
      have hmem : name ∈ Path.pieces path := by
        rw [hp]
        simp
      have hpath : path ≠ "" := by
        rintro rfl
        exact hnonempty (List.mem_singleton.1 hmem)
      exact grows_put hdir (look_eq_none_of_notFound (node?_eq_error_iff.1 hn)
        (check_of_notFound hn hpath) hp hb hw hdir hname hshort) (.inl rfl)

theorem grows_makeChain (paths : List String) (t : FileTree) :
    t.Grows (makeChain paths t).2 ∅ := by
  induction paths generalizing t with
  | nil => exact .refl t ∅
  | cons path parents ih =>
      rw [makeChain]
      by_cases hempty : path.isEmpty
      · rw [if_pos hempty]
        exact .refl t ∅
      rw [if_neg hempty]
      cases hmade : t.makeDirectory path with
      | ok made => exact grows_makeDirectory hmade
      | error e =>
          cases e
          case notFound =>
            -- What stands in the way is made first, and then this directory is tried again.
            have hparents := ih t
            cases hchain : makeChain parents t with
            | mk answer above =>
                rw [hchain] at hparents
                cases answer with
                | error e => exact hparents
                | ok u =>
                    dsimp only
                    cases hagain : above.makeDirectory path with
                    | ok made => exact hparents.trans (grows_makeDirectory hagain)
                    | error e => exact hparents
          all_goals exact .refl t ∅

def target? (t : FileTree) (path : String) : Set (List String) :=
  {names | ∃ place name, t.target path = .ok (place, name) ∧ names = place ++ [name]}

theorem grows_openFile (h : t.openFile path = .ok t') : t.Grows t' (t.target? path) := by
  unfold openFile at h
  split at h
  case h_1 =>
    cases h
    exact .refl t _
  case h_2 => cases h
  case h_4 => cases h
  case h_3 hn =>
    cases ht : t.target path with
    | error e =>
        rw [ht] at h
        cases h
    | ok found =>
        obtain ⟨place, name⟩ := found
        obtain ⟨hc, front, hp, hw, hdir, hshort⟩ := target_eq_ok ht
        simp only [ht, bind, Except.bind] at h
        split_ifs at h with hname
        cases h
        have hnew := look_eq_none_of_notFound (node?_eq_error_iff.1 hn) hc hp (by simp) hw hdir
          hname hshort
        exact grows_put hdir hnew (.inr ⟨rfl, place, name, ht, rfl⟩)

end FileTree

end CausalWork
