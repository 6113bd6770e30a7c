import CausalWork.FileTree
import CausalWork.Proofs.Path

namespace CausalWork

namespace Node

theorem find?_append (n : Node) (front names : List String) :
    n.find? (front ++ names) = (n.find? front).bind fun m => m.find? names := by
  induction front generalizing n with
  | nil => rfl
  | cons name front ih =>
      rw [List.cons_append, find?, find?]
      cases n.child? name with
      | none => rfl
      | some c => exact ih c

theorem nodup_distinct (entries : List (String × Node)) : ((distinct entries).map Prod.fst).Nodup := by
  induction entries with
  | nil => exact List.nodup_nil
  | cons entry entries ih =>
      rw [distinct, List.map_cons, List.nodup_cons]
      exact ⟨by simp, ih.sublist (List.filter_sublist.map Prod.fst)⟩

theorem lookup_filter_of_ne {name other : String} (h : other ≠ name)
    (entries : List (String × Node)) :
    (entries.filter fun entry => entry.1 ≠ name).lookup other = entries.lookup other := by
  induction entries with
  | nil => rfl
  | cons entry entries ih =>
      by_cases he : entry.1 = name
      · have hb : (other == entry.1) = false := by simpa [he] using h
        rw [List.filter_cons_of_neg (by simpa using he), ih, List.lookup_cons, hb]
      · rw [List.filter_cons_of_pos (by simpa using he), List.lookup_cons, List.lookup_cons, ih]

theorem lookup_distinct (entries : List (String × Node)) (name : String) :
    (distinct entries).lookup name = entries.lookup name := by
  induction entries with
  | nil => rfl
  | cons entry entries ih =>
      rw [distinct, List.lookup_cons, List.lookup_cons]
      by_cases h : name = entry.1
      · simp [h]
      · rw [lookup_filter_of_ne h, ih]

theorem distinct_of_nodup {entries : List (String × Node)} (h : (entries.map Prod.fst).Nodup) :
    distinct entries = entries := by
  induction entries with
  | nil => rfl
  | cons entry entries ih =>
      obtain ⟨hn, hs⟩ := List.nodup_cons.1 h
      rw [distinct, ih hs, List.filter_eq_self.2]
      intro other hm
      exact decide_eq_true fun he => hn (he ▸ List.mem_map_of_mem hm)

end Node

namespace FileTree

theorem walk_append (root : Node) (place front names : List String) :
    walk root place (front ++ names) =
      (walk root place front).bind fun reached => walk root reached.reverse names := by
  induction front generalizing place with
  | nil => simp [walk, Except.bind]
  | cons name front ih =>
      rw [List.cons_append, walk, walk]
      split
      · rfl
      · rfl
      · split_ifs
        · exact ih place
        · exact ih place.tail
        · rfl
        · exact ih (name :: place)
        · rfl

theorem isSome_find?_of_walk {root : Node} {place names reached : List String}
    (h : (root.find? place.reverse).isSome) (hw : walk root place names = .ok reached) :
    (root.find? reached).isSome := by
  induction names generalizing place with
  | nil =>
      cases hw
      exact h
  | cons name names ih =>
      rw [walk] at hw
      split at hw
      case h_1 => cases hw
      case h_2 => cases hw
      case h_3 entries hdir =>
        split_ifs at hw with hsilent hup hlong hthere
        · exact ih h hw
        · refine ih ?_ hw
          cases place with
          | nil => exact h
          | cons last place =>
              rw [List.reverse_cons, Node.find?_append] at h
              exact Option.isSome_of_isSome_bind h
        · refine ih ?_ hw
          rw [List.reverse_cons, Node.find?_append, hdir]
          obtain ⟨n, hn⟩ := Option.isSome_iff_exists.1 hthere
          simp [Node.find?, Node.child?, hn]

theorem walk_singleton_cases {root : Node} {place names : List String} {name : String}
    (h : walk root place.reverse [name] = .ok names) :
    names = place ∨ names = place.dropLast ∨ names = place ++ [name] := by
  rw [walk, List.reverse_reverse] at h
  split at h
  · cases h
  · cases h
  · split_ifs at h with hsilent hup hlong hthere
    · simp only [walk, List.reverse_reverse] at h
      cases h
      exact .inl rfl
    · simp only [walk, List.tail_reverse, List.reverse_reverse] at h
      cases h
      exact .inr (.inl rfl)
    · simp only [walk, List.reverse_cons, List.reverse_reverse] at h
      cases h
      exact .inr (.inr rfl)

theorem walk_singleton {root : Node} {place : List String} {name : String}
    (hname : Path.isPlain name) : walk root place [name] =
      match root.find? place.reverse with
      | none => .error .notFound
      | some (.file _) => .error .notDirectory
      | some (.directory entries) =>
        if longestName < name.utf8ByteSize then .error .nameTooLong
        else if (entries.lookup name).isSome then .ok (place.reverse ++ [name])
        else .error .notFound := by
  have hup := ((Path.isPlain_iff name).1 hname).2.2.2.2
  unfold walk
  cases root.find? place.reverse with
  | none => rfl
  | some n =>
      cases n with
      | file content => rfl
      | directory entries => simp [Path.not_isSilent_of_isPlain hname, hup, walk]

theorem walk_empty {root : Node} {place : List String} : walk root place [""] =
    match root.find? place.reverse with
    | none => .error .notFound
    | some (.file _) => .error .notDirectory
    | some (.directory _) => .ok place.reverse := by
  unfold walk
  cases root.find? place.reverse with
  | none => rfl
  | some n => cases n <;> rfl

variable {t : FileTree} {path base name : String}

theorem check_eq_ok_iff : check path = .ok () ↔
    '\x00' ∉ path.toList ∧ path.utf8ByteSize ≤ longestPath ∧ path ≠ "" := by
  unfold check
  split_ifs with hnul hlong hempty <;> simp_all

theorem eq_empty_of_check (h : check path = .error .notFound) : path = "" := by
  unfold check at h
  split at h
  · cases h
  · split at h
    · cases h
    · split at h
      case isTrue hempty => exact String.isEmpty_iff.1 hempty
      case isFalse => cases h

theorem node?_eq_ok_iff {n : Node} :
    t.node? path = .ok n ↔ ∃ names, t.locate path = .ok names ∧ t.root.find? names = some n := by
  unfold node?
  cases t.locate path with
  | error e => simp [bind, Except.bind]
  | ok names =>
      cases hn : t.root.find? names <;>
        simp [bind, Except.bind, hn, pure, Except.pure, throw, throwThe, MonadExceptOf.throw]

theorem read_eq_ok_iff_file {content : Bytes} :
    t.read path = .ok content ↔ t.node? path = .ok (.file content) := by
  unfold read
  cases t.node? path with
  | error e => simp [bind, Except.bind]
  | ok n =>
      cases n <;> simp [bind, Except.bind, pure, Except.pure, throw, throwThe, MonadExceptOf.throw]

theorem readText_eq_ok_iff {text : String} : t.readText path = .ok text ↔
    ∃ content : Bytes, t.node? path = .ok (.file content) ∧ content.text? = some text := by
  simp only [← read_eq_ok_iff_file]
  unfold readText
  cases t.read path with
  | error e => simp [bind, Except.bind]
  | ok content =>
      cases htext : content.text? <;>
        simp [bind, Except.bind, htext, pure, Except.pure, throw, throwThe, MonadExceptOf.throw]

theorem locate_eq_ok_iff {names : List String} : t.locate path = .ok names ↔
    check path = .ok () ∧ walk t.root (t.origin path) (Path.pieces path) = .ok names := by
  unfold locate
  cases check path <;> simp [bind, Except.bind]

theorem isSome_find?_of_locate {names : List String} (h : t.locate path = .ok names) :
    (t.root.find? names).isSome := by
  obtain ⟨-, hw⟩ := locate_eq_ok_iff.1 h
  refine isSome_find?_of_walk ?_ hw
  -- There is a first name, and the place where it is looked for is looked at before it.
  obtain ⟨name, names, hp⟩ := List.exists_cons_of_ne_nil (Path.pieces_ne_nil path)
  rw [hp, walk] at hw
  split at hw
  · cases hw
  · cases hw
  · rename_i hdir
    rw [hdir]
    rfl

theorem node?_eq_error_iff {e : FileError} : t.node? path = .error e ↔ t.locate path = .error e := by
  unfold node?
  cases hl : t.locate path with
  | error e => simp [bind, Except.bind]
  | ok names =>
      obtain ⟨n, hn⟩ := Option.isSome_iff_exists.1 (isSome_find?_of_locate hl)
      simp [bind, Except.bind, hn, pure, Except.pure]

theorem check_join (hb : '\x00' ∉ base.toList) (hn : Path.isPlain name)
    (hnul : '\x00' ∉ name.toList) : check (Path.join base name) =
      if longestPath < (Path.join base name).utf8ByteSize then .error .nameTooLong else .ok () := by
  obtain ⟨hempty, hslash, -⟩ := (Path.isPlain_iff name).1 hn
  have hfree : (Path.join base name).toList.contains '\x00' = false := by
    simpa using Path.notMem_join hslash hb hnul (by decide)
  have hne : (Path.join base name).isEmpty = false := by
    rw [← Bool.not_eq_true, String.isEmpty_iff, Path.join_eq base hslash]
    split <;> simp [hempty]
  rw [check, hfree, hne]
  simp

theorem walk_join {root : Node} {place front rest : List String} (hr : rest = [] ∨ rest = [""])
    (hn : Path.isPlain name) : walk root place (front ++ [name]) =
      (walk root place (front ++ rest)).bind fun reached => walk root reached.reverse [name] := by
  rw [walk_append, walk_append]
  cases walk root place front with
  | error e => rfl
  | ok reached =>
      rcases hr with rfl | rfl
      · simp [Except.bind, walk]
      · simp only [Except.bind, walk_singleton hn, walk_empty, List.reverse_reverse]
        cases hfound : root.find? reached with
        | none => rfl
        | some n => cases n <;> simp [hfound]

theorem locate_join (hb : check base = .ok ()) (hj : check (Path.join base name) = .ok ())
    (hn : Path.isPlain name) : t.locate (Path.join base name) =
      (t.locate base).bind fun names => walk t.root names.reverse [name] := by
  obtain ⟨hempty, hslash, -⟩ := (Path.isPlain_iff name).1 hn
  have hne : base ≠ "" := (check_eq_ok_iff.1 hb).2.2
  obtain ⟨front, rest, hbase, hrest, hjoin⟩ := Path.pieces_join hne hslash
  have horigin : t.origin (Path.join base name) = t.origin base := by
    rw [origin, origin, Path.isAbsolute_join hne hslash]
  unfold locate
  rw [hb, hj, hjoin, hbase, horigin]
  exact walk_join hrest hn

theorem check_of_join (hne : base ≠ "") (hn : Path.isPlain name)
    (hj : check (Path.join base name) = .ok ()) : check base = .ok () := by
  have hslash := ((Path.isPlain_iff name).1 hn).2.1
  obtain ⟨hfree, hshort, -⟩ := check_eq_ok_iff.1 hj
  exact check_eq_ok_iff.2 ⟨fun h => hfree (Path.mem_join hslash (.inl h)),
    (Path.utf8ByteSize_le_join base hslash).trans hshort, hne⟩

theorem node?_join_of_error {e : FileError} (hb : t.node? base = .error e) (hne : base ≠ "")
    (hn : Path.isPlain name) (hj : check (Path.join base name) = .ok ()) :
    t.node? (Path.join base name) = .error e := by
  rw [node?_eq_error_iff, locate_join (check_of_join hne hn hj) hj hn, node?_eq_error_iff.1 hb]
  rfl

theorem node?_join_of_file {content : Bytes} (hb : t.node? base = .ok (.file content))
    (hn : Path.isPlain name) (hj : check (Path.join base name) = .ok ()) :
    t.node? (Path.join base name) = .error .notDirectory := by
  obtain ⟨place, hlocate, hfind⟩ := node?_eq_ok_iff.1 hb
  rw [node?_eq_error_iff, locate_join (locate_eq_ok_iff.1 hlocate).1 hj hn, hlocate, Except.bind,
    walk_singleton hn, List.reverse_reverse, hfind]

theorem locate_join_directory {entries : List (String × Node)} {place : List String}
    (hb : t.locate base = .ok place) (hfind : t.root.find? place = some (.directory entries))
    (hn : Path.isPlain name) (hj : check (Path.join base name) = .ok ()) :
    t.locate (Path.join base name) =
      if longestName < name.utf8ByteSize then .error .nameTooLong
      else if (entries.lookup name).isSome then .ok (place ++ [name])
      else .error .notFound := by
  rw [locate_join (locate_eq_ok_iff.1 hb).1 hj hn, hb, Except.bind, walk_singleton hn,
    List.reverse_reverse, hfind]

theorem node?_join_of_long {entries : List (String × Node)}
    (hb : t.node? base = .ok (.directory entries)) (hn : Path.isPlain name)
    (hj : check (Path.join base name) = .ok ()) (hlong : longestName < name.utf8ByteSize) :
    t.node? (Path.join base name) = .error .nameTooLong := by
  obtain ⟨place, hlocate, hfind⟩ := node?_eq_ok_iff.1 hb
  rw [node?_eq_error_iff, locate_join_directory hlocate hfind hn hj, if_pos hlong]

theorem find?_entry {place : List String} {entries : List (String × Node)}
    (hfind : t.root.find? place = some (.directory entries)) (name : String) :
    t.root.find? (place ++ [name]) = entries.lookup name := by
  rw [Node.find?_append, hfind]
  simp [Node.find?, Node.child?]

/-- What stands under a name in a directory. -/
theorem node?_join {entries : List (String × Node)}
    (hb : t.node? base = .ok (.directory entries)) (hn : Path.isPlain name)
    (hj : check (Path.join base name) = .ok ()) (hshort : name.utf8ByteSize ≤ longestName) :
    t.node? (Path.join base name) =
      match entries.lookup name with
      | some n => .ok n
      | none => .error .notFound := by
  obtain ⟨place, hlocate, hfind⟩ := node?_eq_ok_iff.1 hb
  have hjoin := locate_join_directory hlocate hfind hn hj
  rw [if_neg (Nat.not_lt.2 hshort)] at hjoin
  cases hl : entries.lookup name with
  | none =>
      rw [hl] at hjoin
      exact node?_eq_error_iff.2 hjoin
  | some n =>
      rw [hl] at hjoin
      exact node?_eq_ok_iff.2 ⟨_, hjoin, (find?_entry hfind name).trans hl⟩

theorem entry_of_node?_join {n : Node} (hne : base ≠ "") (hn : Path.isPlain name)
    (h : t.node? (Path.join base name) = .ok n) : ∃ place entries,
      t.locate base = .ok place ∧ t.root.find? place = some (.directory entries) ∧
      entries.lookup name = some n ∧ t.locate (Path.join base name) = .ok (place ++ [name]) := by
  obtain ⟨names, hlocate, hfind⟩ := node?_eq_ok_iff.1 h
  have hj := (locate_eq_ok_iff.1 hlocate).1
  cases hb : t.node? base with
  | error e => cases (node?_join_of_error hb hne hn hj).symm.trans h
  | ok m =>
      cases m with
      | file content => cases (node?_join_of_file hb hn hj).symm.trans h
      | directory entries =>
          obtain ⟨place, hplace, hdir⟩ := node?_eq_ok_iff.1 hb
          have hjoin := hlocate.symm.trans (locate_join_directory hplace hdir hn hj)
          split_ifs at hjoin with hlong hthere
          obtain rfl := Except.ok.inj hjoin
          exact ⟨place, entries, hplace, hdir, (find?_entry hdir name).symm.trans hfind, hlocate⟩

theorem check_of_notFound (h : t.node? path = .error .notFound) (hne : path ≠ "") :
    check path = .ok () := by
  have hl := node?_eq_error_iff.1 h
  unfold locate at hl
  cases hc : check path with
  | ok u => rfl
  | error e =>
      rw [hc] at hl
      cases hl
      exact absurd (eq_empty_of_check hc) hne

end FileTree

end CausalWork
