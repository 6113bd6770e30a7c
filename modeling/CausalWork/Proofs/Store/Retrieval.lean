import CausalWork.Proofs.Store.Listing

namespace CausalWork

namespace FileTree

variable {t : FileTree} {path base name : String}

/-- What can keep a path from being gone along. That nothing is there is not among it. -/
def hindrances : List FileError := [.nulInPath, .nameTooLong, .notDirectory]

def Hindered (t : FileTree) (path : String) : Prop := ∃ e ∈ hindrances, t.node? path = .error e

/-- A path that has nothing under it, and is not just missing. -/
def DeadEnd (t : FileTree) (path : String) : Prop :=
  t.Hindered path ∨ ∃ content, t.node? path = .ok (.file content)

theorem isThere_of_hindrance {e : FileError} (he : e ∈ hindrances) (h : t.node? path = .error e) :
    t.isThere path = .error e := by
  rw [isThere, h]
  cases e with
  | notFound => cases (by decide : FileError.notFound ∉ hindrances) he
  | _ => rfl

theorem isThere_eq_false (h : t.isThere path = .ok false) : t.node? path = .error .notFound := by
  unfold isThere at h
  split at h
  case h_1 => cases h
  case h_2 hnode => exact hnode
  case h_3 => cases h

theorem hindered_of_check (h : check path ≠ .ok ()) (hne : path ≠ "") : t.Hindered path := by
  cases hc : check path with
  | ok u => exact absurd hc h
  | error e =>
      refine ⟨e, ?_, node?_eq_error_iff.2 (by rw [locate, hc]; rfl)⟩
      unfold check at hc
      split_ifs at hc with hnul hlong hempty
      · cases hc
        decide
      · cases hc
        decide
      · exact absurd (String.isEmpty_iff.1 hempty) hne

theorem DeadEnd.join (h : t.DeadEnd base) (hne : base ≠ "") (hn : Path.isPlain name) :
    t.Hindered (Path.join base name) := by
  by_cases hj : check (Path.join base name) = .ok ()
  · rcases h with ⟨e, he, hbase⟩ | ⟨content, hbase⟩
    · exact ⟨e, he, node?_join_of_error hbase hne hn hj⟩
    · exact ⟨.notDirectory, by decide, node?_join_of_file hbase hn hj⟩
  · exact hindered_of_check hj (Path.join_ne_empty base ((Path.isPlain_iff name).1 hn).1)

end FileTree

namespace FileStore

open FileTree

variable {s : FileStore} {kind : Kind} {id : String} {entries : List (String × Node)}
  {listed : List Entry}

def decode (kind : Kind) (id file text : String) : Except Record.Fault Entry :=
  if file = recordFile then (Record.artifact kind id text).map .own
  else (Record.reference kind id text).map .external

inductive Loads (s : FileStore) (kind : Kind) (id directory : String) :
    Except StoreError (Option Entry) → Prop
  | nothing : Loads s kind id directory (.ok none)
  | failed (e : FileError) : Loads s kind id directory (.error (.unavailable s.name e.message))
  | sound {file text : String} {e : Entry} (hfile : file ∈ [recordFile, referenceFile])
      (hread : s.tree.readText (Path.join directory file) = .ok text)
      (he : decode kind id file text = .ok e) : Loads s kind id directory (.ok (some e))
  | malformed {file text : String} {fault : Record.Fault} (hfile : file ∈ [recordFile, referenceFile])
      (hread : s.tree.readText (Path.join directory file) = .ok text)
      (hfault : decode kind id file text = .error fault) :
      Loads s kind id directory (.error (.malformed s.name kind id fault.message))

theorem loads_of_read {directory file : String} {α : Type} (hfile : file ∈ [recordFile, referenceFile])
    (read : String → Except Record.Fault α) (wrap : α → Entry)
    (hdecode : ∀ text, decode kind id file text = (read text).map wrap) :
    s.Loads kind id directory (do
      let text ← s.attempt (s.tree.readText (Path.join directory file))
      return some (wrap (← s.decoded kind id (read text)))) := by
  cases hread : s.tree.readText (Path.join directory file) with
  | error e => exact .failed e
  | ok text =>
      have hd := hdecode text
      cases hr : read text with
      | error fault =>
          rw [hr] at hd
          simp only [attempt, bind, Except.bind, decoded, hr]
          exact .malformed hfile hread hd
      | ok a =>
          rw [hr] at hd
          simp only [attempt, bind, Except.bind, decoded, hr]
          exact .sound hfile hread hd

theorem loads (s : FileStore) (kind : Kind) (id directory : String) :
    s.Loads kind id directory (s.load kind id directory) := by
  have hreference : referenceFile ∈ [recordFile, referenceFile] := by simp
  unfold load
  dsimp only
  cases s.tree.isThere (Path.join directory recordFile) with
  | error e => exact .failed e
  | ok there =>
      cases there with
      | true => exact loads_of_read List.mem_cons_self (Record.artifact kind id) .own fun _ => if_pos rfl
      | false =>
          cases s.tree.isThere (Path.join directory referenceFile) with
          | error e => exact .failed e
          | ok there =>
              cases there with
              | true =>
                  exact loads_of_read hreference (Record.reference kind id) .external
                    fun _ => if_neg (by decide)
              | false => exact .nothing

theorem decode_ne_malformed {file text : String} {e : Entry} (h : decode kind id file text = .ok e)
    (reason : String) : e ≠ .malformed id reason := by
  rintro rfl
  unfold decode at h
  split at h
  · cases ha : Record.artifact kind id text <;> rw [ha] at h <;> cases h
  · cases hr : Record.reference kind id text <;> rw [hr] at h <;> cases h

theorem load_some {directory : String} {e : Entry} (h : s.load kind id directory = .ok (some e)) :
    e.id = id ∧ ∀ reason, e ≠ .malformed id reason := by
  refine ⟨(load_ok h).2, ?_⟩
  have hl := loads s kind id directory
  rw [h] at hl
  cases hl with
  | sound hfile hread he => exact decode_ne_malformed he

theorem load_malformed {directory store id' reason : String} {kind' : Kind}
    (h : s.load kind id directory = .error (.malformed store kind' id' reason)) :
    store = s.name ∧ kind' = kind ∧ id' = id := by
  have hl := loads s kind id directory
  rw [h] at hl
  cases hl with
  | malformed hfile hread hfault => exact ⟨rfl, rfl, rfl⟩

theorem listed_eq_ok_iff {directory : String} {e? : Option Entry} :
    s.listed kind id directory = .ok e? ↔ s.load kind id directory = .ok e? ∨
      ∃ reason, e? = some (.malformed id reason) ∧
        s.load kind id directory = .error (.malformed s.name kind id reason) := by
  have hl := loads s kind id directory
  unfold listed
  generalize s.load kind id directory = answer at hl
  cases hl with
  | nothing | failed | sound => simp
  | malformed => simp [eq_comm]

theorem id_of_listed {directory : String} {e : Entry}
    (h : s.listed kind id directory = .ok (some e)) : e.id = id := by
  rcases listed_eq_ok_iff.1 h with hload | ⟨reason, he, -⟩
  · exact (load_some hload).1
  · cases he
    rfl

theorem ok_of_attempt {α : Type} {x : Except FileError α} {a : α} (h : s.attempt x = .ok a) :
    x = .ok a := by
  cases x with
  | error e => cases h
  | ok b =>
      cases h
      rfl

/-- What a listing that succeeds goes through, and what it has of it. -/
structure Listing (s : FileStore) (kind : Kind) (entries : List (String × Node))
    (listed : List Entry) : Prop where
  lays : s.Lays kind entries
  found : ∀ id ∈ ids entries, ∃ e?,
    s.listed kind id (Path.join (s.kindDirectory kind) id) = .ok e?
  mem_iff : ∀ e, e ∈ listed ↔ ∃ id ∈ ids entries,
    s.listed kind id (Path.join (s.kindDirectory kind) id) = .ok (some e)

theorem exists_listing (h : s.list kind = .ok listed) : ∃ entries, s.Listing kind entries listed := by
  obtain ⟨root, -, h⟩ := ok_of_bind h
  cases root with
  | false => cases h
  | true =>
      obtain ⟨there, hthere, h⟩ := ok_of_bind h
      have hthere := ok_of_attempt hthere
      cases there with
      | false =>
          cases h
          exact ⟨[], .inr ⟨isThere_eq_false hthere, rfl⟩, nofun, by simp [ids]⟩
      | true =>
          obtain ⟨entries, hentries, h⟩ := ok_of_bind h
          obtain ⟨found, hfound, h⟩ := ok_of_bind h
          cases h
          refine ⟨entries, .inl (ok_of_attempt hentries), fun id hid => ?_, fun e => ?_⟩
          · obtain ⟨e?, -, he⟩ := exists_of_mapM_eq_ok hfound hid
            exact ⟨e?, he⟩
          · simpa using mem_of_mapM_eq_ok hfound

theorem Listing.mem_and_id_iff (h : s.Listing kind entries listed) {e : Entry} :
    e ∈ listed ∧ e.id = id ↔ id ∈ ids entries ∧
      s.listed kind id (Path.join (s.kindDirectory kind) id) = .ok (some e) := by
  rw [h.mem_iff]
  constructor
  · rintro ⟨⟨i, hi, he⟩, rfl⟩
    obtain rfl := id_of_listed he
    exact ⟨hi, he⟩
  · rintro ⟨hid, he⟩
    exact ⟨⟨id, hid, he⟩, id_of_listed he⟩

/-- An id of which a store cannot tell that it has no record: no path has the id in it, or there is
a file of that name. -/
structure Obstructed (s : FileStore) (kind : Kind) (id : String) : Prop where
  plain : Path.isPlain id
  cause : '\x00' ∈ id.toList ∨ longestPath < (Path.join (s.kindDirectory kind) id).utf8ByteSize ∨
    ∃ entries, s.tree.entries (s.kindDirectory kind) = .ok entries ∧
      (longestName < id.utf8ByteSize ∨ ∃ content, (id, .file content) ∈ entries)

theorem kindDirectory_ne_empty (s : FileStore) (kind : Kind) : s.kindDirectory kind ≠ "" :=
  Path.join_ne_empty s.root (by cases kind <;> decide)

theorem Lays.check (h : s.Lays kind entries) : check (s.kindDirectory kind) = .ok () := by
  rcases h with hdir | ⟨hmissing, -⟩
  · obtain ⟨held, hbase, -⟩ := entries_eq_ok_iff.1 hdir
    obtain ⟨place, hl, -⟩ := node?_eq_ok_iff.1 hbase
    exact (locate_eq_ok_iff.1 hl).1
  · exact check_of_notFound hmissing (s.kindDirectory_ne_empty kind)

theorem Lays.standing (h : s.Lays kind entries) (hp : Path.isPlain id)
    (ho : ¬ s.Obstructed kind id) :
    s.tree.node? (Path.join (s.kindDirectory kind) id) = standing (entries.lookup id) := by
  obtain ⟨hnul, hrest⟩ := not_or.1 fun hcause => ho ⟨hp, hcause⟩
  obtain ⟨hshort, hname⟩ := not_or.1 hrest
  have hcheck : FileTree.check (Path.join (s.kindDirectory kind) id) = .ok () := by
    rw [check_join (check_eq_ok_iff.1 h.check).1 hp hnul, if_neg hshort]
  rcases h with hdir | ⟨hmissing, rfl⟩
  · exact node?_join_of_entries hdir hp hcheck
      (Nat.not_lt.1 fun hlong => hname ⟨entries, hdir, .inl hlong⟩)
  · exact node?_join_of_error hmissing (s.kindDirectory_ne_empty kind) hp hcheck

theorem Obstructed.deadEnd (h : s.Obstructed kind id) :
    s.tree.DeadEnd (Path.join (s.kindDirectory kind) id) := by
  obtain ⟨hempty, hslash, -⟩ := (Path.isPlain_iff id).1 h.plain
  by_cases hj : FileTree.check (Path.join (s.kindDirectory kind) id) = .ok ()
  · obtain ⟨hfree, hshort, -⟩ := check_eq_ok_iff.1 hj
    rcases h.cause with hnul | hlong | ⟨entries, hdir, hname⟩
    · exact absurd (Path.mem_join hslash (.inr hnul)) hfree
    · exact absurd hlong (Nat.not_lt.2 hshort)
    · rcases Nat.lt_or_ge longestName id.utf8ByteSize with hlong | hshort
      · obtain ⟨held, hbase, -⟩ := entries_eq_ok_iff.1 hdir
        exact .inl ⟨.nameTooLong, by decide, node?_join_of_long hbase h.plain hj hlong⟩
      · obtain ⟨content, hfile⟩ := hname.resolve_left (Nat.not_lt.2 hshort)
        refine .inr ⟨content, ?_⟩
        have hdistinct : (entries.map Prod.fst).Nodup := Lays.distinct (.inl hdir)
        rw [node?_join_of_entries hdir h.plain hj hshort, (lookup_eq_some_iff_mem hdistinct).2 hfile]
        rfl
  · exact .inl (hindered_of_check hj (Path.join_ne_empty _ hempty))

theorem load_of_deadEnd (kind : Kind) (id : String) {directory : String}
    (h : s.tree.DeadEnd directory) (hne : directory ≠ "") : ∃ e ∈ hindrances,
      s.load kind id directory = .error (.unavailable s.name e.message) := by
  obtain ⟨e, he, hnode⟩ := h.join hne (by decide : Path.isPlain recordFile)
  refine ⟨e, he, ?_⟩
  rw [load, isThere_of_hindrance he hnode]
  rfl

theorem get_of_not_plain (hp : ¬ Path.isPlain id) : s.get kind id = .ok none := by
  simp [get, hp, pure, Except.pure]

theorem get_of_plain (hp : Path.isPlain id) : s.get kind id =
    match s.tree.isThere (Path.join (s.kindDirectory kind) id) with
    | .ok true => s.load kind id (Path.join (s.kindDirectory kind) id)
    | .ok false => .ok none
    | .error e => .error (.unavailable s.name e.message) := by
  rw [get, hp]
  dsimp only
  cases s.tree.isThere (Path.join (s.kindDirectory kind) id) with
  | error e => rfl
  | ok there => cases there <;> simp [attempt, bind, Except.bind, pure, Except.pure]

theorem get_of_deadEnd (hp : Path.isPlain id)
    (h : s.tree.DeadEnd (Path.join (s.kindDirectory kind) id)) :
    ∃ e ∈ hindrances, s.get kind id = .error (.unavailable s.name e.message) := by
  rw [get_of_plain hp]
  rcases h with ⟨e, he, hnode⟩ | ⟨content, hnode⟩
  · rw [isThere_of_hindrance he hnode]
    exact ⟨e, he, rfl⟩
  · obtain ⟨e, he, hload⟩ := load_of_deadEnd kind id (.inr ⟨content, hnode⟩)
      (Path.join_ne_empty _ ((Path.isPlain_iff id).1 hp).1)
    rw [isThere, hnode]
    exact ⟨e, he, hload⟩

theorem get_of_standing {found : Option Node} (hp : Path.isPlain id)
    (h : s.tree.node? (Path.join (s.kindDirectory kind) id) = standing found) :
    s.get kind id =
      if found.isSome then s.load kind id (Path.join (s.kindDirectory kind) id) else .ok none := by
  rw [get_of_plain hp, isThere_of_standing h]
  cases found <;> rfl

theorem Listing.not_obstructed (h : s.Listing kind entries listed) (hid : id ∈ ids entries) :
    ¬ s.Obstructed kind id := by
  intro ho
  obtain ⟨e?, hlisted⟩ := h.found id hid
  obtain ⟨e, -, hload⟩ := load_of_deadEnd kind id ho.deadEnd
    (Path.join_ne_empty _ ((Path.isPlain_iff id).1 ho.plain).1)
  rcases listed_eq_ok_iff.1 hlisted with hfound | ⟨reason, -, hfound⟩
  · cases hload.symm.trans hfound
  · cases hload.symm.trans hfound

theorem Listing.get_of_mem (h : s.Listing kind entries listed) (hid : id ∈ ids entries) :
    s.get kind id = s.load kind id (Path.join (s.kindDirectory kind) id) := by
  obtain ⟨d, hm, hp⟩ := mem_ids.1 hid
  have hstands := h.lays.standing hp (h.not_obstructed hid)
  rw [(lookup_eq_some_iff_mem h.lays.distinct).2 hm] at hstands
  exact (get_of_standing hp hstands).trans (if_pos rfl)

theorem Lays.get_of_notMem (h : s.Lays kind entries) (hid : id ∉ ids entries)
    (ho : ¬ s.Obstructed kind id) : s.get kind id = .ok none := by
  by_cases hp : Path.isPlain id
  · have hstands := h.standing hp ho
    cases hl : entries.lookup id with
    | none =>
        rw [hl] at hstands
        exact get_of_standing hp hstands
    | some n =>
        have hm := (lookup_eq_some_iff_mem h.distinct).1 hl
        cases n with
        | directory d => exact absurd (mem_ids.2 ⟨d, hm, hp⟩) hid
        | file content =>
            have hdir := h.resolve_right fun ⟨_, hnil⟩ => List.not_mem_nil (hnil ▸ hm)
            exact absurd ⟨hp, .inr (.inr ⟨entries, hdir, .inr ⟨content, hm⟩⟩)⟩ ho
  · exact get_of_not_plain hp

/-- What is got by an id, beside a listing of the kind. -/
structure Matches (s : FileStore) (kind : Kind) (listed : List Entry) (id : String) : Prop where
  record : ∀ e, s.get kind id = .ok (some e) ↔
    e ∈ listed ∧ e.id = id ∧ ∀ reason, e ≠ .malformed id reason
  malformed : ∀ store kind' id' reason,
    s.get kind id = .error (.malformed store kind' id' reason) ↔
      store = s.name ∧ kind' = kind ∧ id' = id ∧ .malformed id reason ∈ listed
  absent : id ∉ listed.map Entry.id → ¬ s.Obstructed kind id → s.get kind id = .ok none
  obstructed : s.Obstructed kind id → id ∉ listed.map Entry.id ∧
    ∃ e ∈ hindrances, s.get kind id = .error (.unavailable s.name e.message)

theorem Listing.matches_of_mem (h : s.Listing kind entries listed) (hid : id ∈ ids entries) :
    s.Matches kind listed id := by
  have hget := h.get_of_mem hid
  have hmem (e : Entry) : e ∈ listed ∧ e.id = id ↔
      s.listed kind id (Path.join (s.kindDirectory kind) id) = .ok (some e) :=
    h.mem_and_id_iff.trans (and_iff_right hid)
  constructor
  case record =>
    intro e
    rw [← and_assoc, hmem, hget, listed_eq_ok_iff]
    constructor
    · exact fun he => ⟨.inl he, (load_some he).2⟩
    · rintro ⟨he | ⟨reason, he, -⟩, hsound⟩
      · exact he
      · exact absurd (Option.some.inj he) (hsound reason)
  case malformed =>
    intro store kind' id' reason
    have hreason := (and_iff_left rfl).symm.trans
      ((hmem (.malformed id reason)).trans listed_eq_ok_iff)
    rw [hget]
    constructor
    · intro he
      obtain ⟨rfl, rfl, rfl⟩ := load_malformed he
      exact ⟨rfl, rfl, rfl, hreason.2 (.inr ⟨reason, rfl, he⟩)⟩
    · rintro ⟨rfl, rfl, rfl, he⟩
      rcases hreason.1 he with hload | ⟨reason', hsame, hload⟩
      · exact absurd rfl ((load_some hload).2 reason)
      · cases hsame
        exact hload
  case absent =>
    intro hout ho
    obtain ⟨e?, hfound⟩ := h.found id hid
    cases e? with
    | some e =>
        obtain ⟨he, hei⟩ := (hmem e).2 hfound
        exact absurd (List.mem_map.2 ⟨e, he, hei⟩) hout
    | none =>
        rw [hget]
        exact (listed_eq_ok_iff.1 hfound).resolve_right fun ⟨reason, hnone, _⟩ => nomatch hnone
  case obstructed =>
    exact fun ho => absurd ho (h.not_obstructed hid)

theorem Listing.matches_of_notMem (h : s.Listing kind entries listed) (hid : id ∉ ids entries) :
    s.Matches kind listed id := by
  have hmem (e : Entry) (he : e ∈ listed) : e.id ≠ id :=
    fun hei => hid (h.mem_and_id_iff.1 ⟨he, hei⟩).1
  have hout : id ∉ listed.map Entry.id := by
    rintro hm
    obtain ⟨e, he, hei⟩ := List.mem_map.1 hm
    exact hmem e he hei
  have hfails (ho : s.Obstructed kind id) := get_of_deadEnd ho.plain ho.deadEnd
  -- Nothing is got: at most the store fails.
  have hget : s.get kind id = .ok none ∨
      ∃ reason, s.get kind id = .error (.unavailable s.name reason) := by
    by_cases ho : s.Obstructed kind id
    · obtain ⟨e, -, he⟩ := hfails ho
      exact .inr ⟨_, he⟩
    · exact .inl (h.lays.get_of_notMem hid ho)
  refine ⟨fun e => ⟨fun he => ?_, fun ⟨he, hei, _⟩ => absurd hei (hmem e he)⟩,
    fun store kind' id' reason => ⟨fun he => ?_, fun ⟨_, _, _, he⟩ => absurd rfl (hmem _ he)⟩,
    fun _ ho => h.lays.get_of_notMem hid ho, fun ho => ⟨hout, hfails ho⟩⟩
  · rcases hget with hget | ⟨reason, hget⟩ <;> cases hget.symm.trans he
  · rcases hget with hget | ⟨reason, hget⟩ <;> cases hget.symm.trans he

/-- What is got by an id is what is listed under it, as a record or as the failure to read one, and
by an id that is not listed nothing is got. But for an id that is obstructed the store fails. -/
theorem get_matches_list (s : FileStore) (kind : Kind) (listed : List Entry)
    (hl : s.list kind = .ok listed) (id : String) :
    s.Matches kind listed id := by
  obtain ⟨entries, h⟩ := exists_listing hl
  by_cases hid : id ∈ ids entries
  · exact h.matches_of_mem hid
  · exact h.matches_of_notMem hid

def strayShelves : List (String × Node) :=
  [("lexer", .directory [(recordFile, .file (Bytes.ofText "status: FUTURE\n"))]),
    ("notes", .file (Bytes.ofText "Ideas\n"))]

def strayStore : FileStore where
  name := "home"
  root := "/store"
  tree := ⟨.directory [("store", .directory [("chunks", .directory strayShelves)])], []⟩
  latency := 0

theorem entries_stray : strayStore.tree.entries (strayStore.kindDirectory .chunk) =
    .ok strayShelves := by
  have hnames : (strayShelves.map Prod.fst).Nodup := by decide
  exact entries_eq_ok_iff.2 ⟨_, by rfl, Node.distinct_of_nodup hnames⟩

theorem get_matches_list_stray :
    let lexer : Entry := .own ⟨"lexer", .chunk, .chunk .future, [], [], .home⟩
    strayStore.list .chunk = .ok [lexer] ∧
      strayStore.get .chunk "lexer" = .ok (some lexer) ∧
      ¬ strayStore.Obstructed .chunk "parser" ∧ strayStore.get .chunk "parser" = .ok none ∧
      strayStore.Obstructed .chunk "notes" ∧
      ∃ e ∈ hindrances, strayStore.get .chunk "notes" = .error (.unavailable "home" e.message) := by
  intro lexer
  have hl : strayStore.list .chunk = .ok [lexer] := by decide +kernel
  have hparser : ¬ strayStore.Obstructed .chunk "parser" := by
    rintro ⟨-, hnul | hlong | ⟨entries, hdir, hname⟩⟩
    · exact absurd hnul (by decide)
    · exact absurd hlong (by decide +kernel)
    · cases entries_stray.symm.trans hdir
      rcases hname with hlong | ⟨content, hfile⟩
      · exact absurd hlong (by decide)
      · simp [strayShelves] at hfile
  have hfile : ("notes", .file (Bytes.ofText "Ideas\n")) ∈ strayShelves :=
    List.mem_cons_of_mem _ List.mem_cons_self
  have hnotes : strayStore.Obstructed .chunk "notes" :=
    ⟨by decide, .inr (.inr ⟨strayShelves, entries_stray, .inr ⟨_, hfile⟩⟩)⟩
  refine ⟨hl, ((get_matches_list _ _ _ hl "lexer").record lexer).2 ?_, hparser,
    (get_matches_list _ _ _ hl "parser").absent (by decide) hparser, hnotes,
    ((get_matches_list _ _ _ hl "notes").obstructed hnotes).2⟩
  exact ⟨List.mem_singleton_self lexer, rfl, fun _ => nofun⟩

/-- A file beside the artifacts is no entry, and to ask for it by its name makes the store fail. -/
theorem stray_file_not_absent :
    strayStore.list .chunk = .ok [.own ⟨"lexer", .chunk, .chunk .future, [], [], .home⟩] ∧
      strayStore.get .chunk "notes" =
        .error (.unavailable "home" "Not a directory (os error 20)") :=
  ⟨by decide +kernel, by decide +kernel⟩

end FileStore

end CausalWork
