import CausalWork.Proofs.FileTree.Walk
import CausalWork.Proofs.Sequence
import CausalWork.Proofs.Store

namespace CausalWork

namespace FileTree

variable {t : FileTree} {path : String} {found : Option Node}

theorem entries_eq_ok_iff {entries : List (String × Node)} : t.entries path = .ok entries ↔
    ∃ held, t.node? path = .ok (.directory held) ∧ Node.distinct held = entries := by
  rw [FileTree.entries]
  cases h : t.node? path with
  | error e => simp [bind, Except.bind]
  | ok n => cases n <;> simp [bind, Except.bind, pure, Except.pure, throw, throwThe, MonadExceptOf.throw]

def standing : Option Node → Except FileError Node
  | some n => .ok n
  | none => .error .notFound

theorem node?_join_of_entries {name : String} {entries : List (String × Node)}
    (h : t.entries path = .ok entries) (hn : Path.isPlain name)
    (hj : check (Path.join path name) = .ok ()) (hlong : name.utf8ByteSize ≤ longestName) :
    t.node? (Path.join path name) = standing (entries.lookup name) := by
  obtain ⟨held, hbase, rfl⟩ := entries_eq_ok_iff.1 h
  rw [node?_join hbase hn hj hlong, Node.lookup_distinct]
  cases held.lookup name <;> rfl

theorem isThere_of_standing (h : t.node? path = standing found) : t.isThere path = .ok found.isSome := by
  rw [isThere, h]
  cases found <;> rfl

theorem readText_of_file {content : Bytes} (h : t.node? path = .ok (.file content)) :
    t.readText path = match content.text? with
      | some s => .ok s
      | none => .error .notText := by
  rw [readText, read_eq_ok_iff_file.2 h]
  rfl

end FileTree

namespace FileStore

open FileTree

/-- What the directory of an artifact has: the bytes of a record, or else of a reference. -/
inductive Holding
  | nothing
  | record (content : Bytes)
  | reference (content : Bytes)

/-- The entry of an id for bytes: a malformed one if they are no text or do not decode. -/
def entryOf (id : String) (content : Bytes) (decode : String → Except Record.Fault Entry) : Entry :=
  match content.text? with
  | none => .malformed id FileError.notText.message
  | some text =>
    match decode text with
    | .ok e => e
    | .error fault => .malformed id fault.message

namespace Holding

def ofDirectory (d : List (String × Node)) : Holding :=
  match d.lookup recordFile, d.lookup referenceFile with
  | some (.file content), _ => record content
  | _, some (.file content) => reference content
  | _, _ => nothing

def isText : Holding → Bool
  | nothing => true
  | record content | reference content => content.text?.isSome

def shown? (kind : Kind) (id : String) : Holding → Option Entry
  | nothing => none
  | record content => some (entryOf id content fun text => (Record.artifact kind id text).map .own)
  | reference content =>
    some (entryOf id content fun text => (Record.reference kind id text).map .external)

end Holding

/-- The directory of a kind, as a listing goes through it. -/
def Lays (s : FileStore) (kind : Kind) (entries : List (String × Node)) : Prop :=
  s.tree.entries (s.kindDirectory kind) = .ok entries ∨
    s.tree.node? (s.kindDirectory kind) = .error .notFound ∧ entries = []

/-- The directories of artifacts that a store has for a kind, as a file system may have them: no
name is too long, and each record is in a regular file. -/
structure Shelves (s : FileStore) (kind : Kind) (entries : List (String × Node)) : Prop where
  root : s.tree.isThere s.root = .ok true
  lays : s.Lays kind entries
  named : ∀ id ∈ ids entries, '\x00' ∉ id.toList ∧ id.utf8ByteSize ≤ longestName
  regular : ∀ id d, (id, .directory d) ∈ entries → Path.isPlain id →
    ∀ name ∈ [recordFile, referenceFile], ∀ inner, d.lookup name ≠ some (.directory inner)

/-- The record of an artifact can be read: its path is not too long, and it is text. -/
structure Readable (s : FileStore) (kind : Kind) (id : String) (d : List (String × Node)) : Prop where
  short : (Path.join (Path.join (s.kindDirectory kind) id) recordFile).utf8ByteSize ≤ longestPath
  text : (Holding.ofDirectory d).isText

variable {s : FileStore} {kind : Kind} {entries d : List (String × Node)}

theorem Lays.distinct (h : s.Lays kind entries) : (entries.map Prod.fst).Nodup := by
  rcases h with hdir | ⟨-, rfl⟩
  · obtain ⟨held, -, rfl⟩ := entries_eq_ok_iff.1 hdir
    exact Node.nodup_distinct held
  · exact List.nodup_nil

theorem Shelves.distinct (h : s.Shelves kind entries) : (entries.map Prod.fst).Nodup :=
  h.lays.distinct

theorem mem_ids {id : String} :
    id ∈ ids entries ↔ ∃ d, (id, .directory d) ∈ entries ∧ Path.isPlain id := by
  simp only [ids, List.mem_map, List.mem_filter, Bool.and_eq_true]
  constructor
  · rintro ⟨⟨name, n⟩, ⟨hm, hdir, hplain⟩, rfl⟩
    cases n with
    | file content => cases hdir
    | directory d => exact ⟨d, hm, hplain⟩
  · rintro ⟨d, hm, hplain⟩
    exact ⟨(id, .directory d), ⟨hm, rfl, hplain⟩, rfl⟩

theorem listed_of_load {id directory path : String} {content : Bytes} {α : Type}
    (hfile : s.tree.node? path = .ok (.file content)) (decode : String → Except Record.Fault α)
    (wrap : α → Entry) (hload : s.load kind id directory = do
      let text ← s.attempt (s.tree.readText path)
      return some (wrap (← s.decoded kind id (decode text)))) :
    s.listed kind id directory =
      if content.text?.isSome then .ok (some (entryOf id content fun text => (decode text).map wrap))
      else .error (.unavailable s.name FileError.notText.message) := by
  unfold listed
  rw [hload, readText_of_file hfile, entryOf]
  cases content.text? with
  | none => rfl
  | some text =>
      cases hd : decode text <;>
        simp [attempt, decoded, hd, bind, Except.bind, pure, Except.pure, Except.map]

theorem listed_eq {id directory : String}
    (hrecord : s.tree.node? (Path.join directory recordFile) = standing (d.lookup recordFile))
    (hreference : s.tree.node? (Path.join directory referenceFile) = standing (d.lookup referenceFile))
    (hd : ∀ name ∈ [recordFile, referenceFile], ∀ inner, d.lookup name ≠ some (.directory inner)) :
    s.listed kind id directory =
      if (Holding.ofDirectory d).isText then .ok ((Holding.ofDirectory d).shown? kind id)
      else .error (.unavailable s.name FileError.notText.message) := by
  have hthere := isThere_of_standing hrecord
  have hthere' := isThere_of_standing hreference
  have hrec := hd recordFile (by simp)
  have href := hd referenceFile (by simp)
  unfold Holding.ofDirectory
  -- The record is looked for first, and only without one the reference.
  cases hfound : d.lookup recordFile with
  | some n =>
      cases n with
      | directory inner => exact absurd hfound (hrec inner)
      | file content =>
          rw [hfound] at hrecord hthere
          refine listed_of_load hrecord (Record.artifact kind id) .own ?_
          rw [load, hthere]
          rfl
  | none =>
      rw [hfound] at hthere
      cases hfound' : d.lookup referenceFile with
      | some n =>
          cases n with
          | directory inner => exact absurd hfound' (href inner)
          | file content =>
              rw [hfound'] at hreference hthere'
              refine listed_of_load hreference (Record.reference kind id) .external ?_
              rw [load, hthere, hthere']
              rfl
      | none =>
          rw [hfound'] at hthere'
          unfold listed
          rw [load, hthere, hthere']
          rfl

theorem size_of_mem_files {name : String} (h : name ∈ [recordFile, referenceFile]) :
    Path.isPlain name ∧ '\x00' ∉ name.toList ∧ name.utf8ByteSize ≤ longestName ∧
      name.utf8ByteSize = recordFile.utf8ByteSize := by
  revert name
  decide

theorem node?_join_file {directory name : String}
    (hd : s.tree.node? directory = .ok (.directory d))
    (hname : name ∈ [recordFile, referenceFile])
    (hshort : (Path.join directory recordFile).utf8ByteSize ≤ longestPath) :
    s.tree.node? (Path.join directory name) = standing (d.lookup name) := by
  obtain ⟨hplain, hnul, hlong, hsize⟩ := size_of_mem_files hname
  have hslash := ((Path.isPlain_iff name).1 hplain).2.1
  obtain ⟨place, hl, -⟩ := node?_eq_ok_iff.1 hd
  have hfree := (check_eq_ok_iff.1 (locate_eq_ok_iff.1 hl).1).1
  have hcheck : check (Path.join directory name) = .ok () := by
    rw [check_join hfree hplain hnul, if_neg]
    rw [Path.utf8ByteSize_join_of_eq directory hslash (by decide) hsize]
    exact Nat.not_lt.2 hshort
  rw [node?_join hd hplain hcheck hlong]
  cases d.lookup name <;> rfl

theorem listed_of_long {id directory : String} (hfree : '\x00' ∉ directory.toList)
    (hlong : longestPath < (Path.join directory recordFile).utf8ByteSize) :
    s.listed kind id directory = .error (.unavailable s.name FileError.nameTooLong.message) := by
  have hcheck : check (Path.join directory recordFile) = .error .nameTooLong :=
    (check_join hfree (by decide) (by decide)).trans (if_pos hlong)
  have hthere : s.tree.isThere (Path.join directory recordFile) = .error .nameTooLong := by
    have hnode : s.tree.node? (Path.join directory recordFile) = .error .nameTooLong := by
      rw [node?_eq_error_iff, locate, hcheck]
      rfl
    rw [isThere, hnode]
  unfold listed
  rw [load, hthere]
  rfl

theorem Shelves.free (h : s.Shelves kind entries) {id : String} (hid : id ∈ ids entries) :
    '\x00' ∉ (Path.join (s.kindDirectory kind) id).toList ∧
      s.tree.entries (s.kindDirectory kind) = .ok entries := by
  obtain ⟨d, hm, hp⟩ := mem_ids.1 hid
  have hdir := h.lays.resolve_right fun ⟨_, hnil⟩ => List.not_mem_nil (hnil ▸ hm)
  obtain ⟨held, hbase, -⟩ := entries_eq_ok_iff.1 hdir
  obtain ⟨place, hl, -⟩ := node?_eq_ok_iff.1 hbase
  exact ⟨Path.notMem_join ((Path.isPlain_iff id).1 hp).2.1
    (check_eq_ok_iff.1 (locate_eq_ok_iff.1 hl).1).1 (h.named id hid).1 (by decide), hdir⟩

theorem Shelves.listed_of_short (h : s.Shelves kind entries) {id : String}
    (hm : (id, .directory d) ∈ entries) (hp : Path.isPlain id)
    (hshort : (Path.join (Path.join (s.kindDirectory kind) id) recordFile).utf8ByteSize ≤ longestPath) :
    s.listed kind id (Path.join (s.kindDirectory kind) id) =
      if (Holding.ofDirectory d).isText then .ok ((Holding.ofDirectory d).shown? kind id)
      else .error (.unavailable s.name FileError.notText.message) := by
  have hid := mem_ids.2 ⟨d, hm, hp⟩
  obtain ⟨hnul, hlong⟩ := h.named id hid
  obtain ⟨-, hdir⟩ := h.free hid
  obtain ⟨held, hbase, -⟩ := entries_eq_ok_iff.1 hdir
  obtain ⟨place, hl, -⟩ := node?_eq_ok_iff.1 hbase
  have hcheck : check (Path.join (s.kindDirectory kind) id) = .ok () := by
    rw [check_join (check_eq_ok_iff.1 (locate_eq_ok_iff.1 hl).1).1 hp hnul, if_neg]
    exact Nat.not_lt.2 ((Path.utf8ByteSize_le_join _ (by decide)).trans hshort)
  have hdirectory : s.tree.node? (Path.join (s.kindDirectory kind) id) = .ok (.directory d) := by
    rw [node?_join_of_entries hdir hp hcheck hlong, (lookup_eq_some_iff_mem h.distinct).2 hm]
    rfl
  exact listed_eq (node?_join_file hdirectory (by simp) hshort)
    (node?_join_file hdirectory (by simp) hshort) (h.regular id d hm hp)

theorem Shelves.listed (h : s.Shelves kind entries) {id : String}
    (hm : (id, .directory d) ∈ entries) (hp : Path.isPlain id) (hr : s.Readable kind id d) :
    s.listed kind id (Path.join (s.kindDirectory kind) id) =
      .ok ((Holding.ofDirectory d).shown? kind id) :=
  (h.listed_of_short hm hp hr.short).trans (if_pos hr.text)

theorem Shelves.listed_of_not_readable (h : s.Shelves kind entries) {id : String}
    (hm : (id, .directory d) ∈ entries) (hp : Path.isPlain id) (hr : ¬ s.Readable kind id d) :
    ∃ e ∈ [FileError.notText, .nameTooLong],
      s.listed kind id (Path.join (s.kindDirectory kind) id) =
        .error (.unavailable s.name e.message) := by
  rcases Nat.lt_or_ge longestPath
    (Path.join (Path.join (s.kindDirectory kind) id) recordFile).utf8ByteSize with hlong | hshort
  · exact ⟨.nameTooLong, by simp, listed_of_long (h.free (mem_ids.2 ⟨d, hm, hp⟩)).1 hlong⟩
  · refine ⟨.notText, by simp, (h.listed_of_short hm hp hshort).trans (if_neg fun ht => ?_)⟩
    exact hr ⟨hshort, ht⟩

def shelved (kind : Kind) (entries : List (String × Node)) (id : String) : Option Entry :=
  match entries.lookup id with
  | some (.directory d) => (Holding.ofDirectory d).shown? kind id
  | _ => none

theorem shelved_of_mem (h : (entries.map Prod.fst).Nodup) {id : String}
    (hm : (id, .directory d) ∈ entries) :
    shelved kind entries id = (Holding.ofDirectory d).shown? kind id := by
  rw [shelved, (lookup_eq_some_iff_mem h).2 hm]

theorem id_entryOf {id : String} {content : Bytes} {decode : String → Except Record.Fault Entry}
    (h : ∀ text e, decode text = .ok e → e.id = id) : (entryOf id content decode).id = id := by
  unfold entryOf
  split
  · rfl
  · split
    case h_1 e he => exact h _ e he
    case h_2 => rfl

theorem Holding.id_of_shown? {x : Holding} {id : String} {e : Entry}
    (h : x.shown? kind id = some e) : e.id = id := by
  cases x with
  | nothing => cases h
  | record content =>
      obtain rfl := Option.some.inj h
      refine id_entryOf fun text e he => ?_
      cases ha : Record.artifact kind id text with
      | error fault =>
          rw [ha] at he
          cases he
      | ok a =>
          rw [ha] at he
          cases he
          exact (Record.artifact_ok ha).2
  | reference content =>
      obtain rfl := Option.some.inj h
      refine id_entryOf fun text e he => ?_
      cases hr : Record.reference kind id text with
      | error fault =>
          rw [hr] at he
          cases he
      | ok r =>
          rw [hr] at he
          cases he
          exact (Record.reference_ok hr).2

theorem id_of_shelved {id : String} {e : Entry} (h : shelved kind entries id = some e) :
    e.id = id := by
  unfold shelved at h
  split at h
  · exact Holding.id_of_shown? h
  · cases h

theorem nodup_ids (h : (entries.map Prod.fst).Nodup) : (ids entries).Nodup :=
  h.sublist (List.filter_sublist.map Prod.fst)

theorem Shelves.list_eq (h : s.Shelves kind entries) : s.list kind = do
    let found ← (ids entries).mapM fun id => s.listed kind id (Path.join (s.kindDirectory kind) id)
    return (found.filterMap id).mergeSort fun a b => ¬ b.id < a.id := by
  rcases h.lays with hdir | ⟨hdir, rfl⟩
  · obtain ⟨held, hbase, -⟩ := entries_eq_ok_iff.1 hdir
    have hthere : s.tree.isThere (s.kindDirectory kind) = .ok true := by
      rw [isThere, hbase]
    simp only [list, h.root, hthere, hdir]
    rfl
  · have hthere : s.tree.isThere (s.kindDirectory kind) = .ok false := by
      rw [isThere, hdir]
    simp [list, h.root, hthere, attempt, ids, bind, Except.bind, pure, Except.pure]

def AllReadable (s : FileStore) (kind : Kind) (entries : List (String × Node)) : Prop :=
  ∀ id d, (id, .directory d) ∈ entries → Path.isPlain id → s.Readable kind id d

theorem Shelves.list_of_readable (h : s.Shelves kind entries) (hr : s.AllReadable kind entries) :
    s.list kind = .ok (((ids entries).filterMap (shelved kind entries)).mergeSort
      fun a b => ¬ b.id < a.id) := by
  have hfound : (ids entries).mapM
      (fun id => s.listed kind id (Path.join (s.kindDirectory kind) id)) =
      .ok ((ids entries).map (shelved kind entries)) := by
    rw [mapM_eq_ok_iff, List.map_map]
    refine List.map_congr_left fun id hid => ?_
    obtain ⟨d, hm, hp⟩ := mem_ids.1 hid
    rw [h.listed hm hp (hr id d hm hp), Function.comp_apply, shelved_of_mem h.distinct hm]
  rw [h.list_eq, hfound]
  simp [bind, Except.bind, pure, Except.pure, List.filterMap_map]

theorem Shelves.list_of_not_readable (h : s.Shelves kind entries)
    (hr : ¬ s.AllReadable kind entries) : ∃ e ∈ [FileError.notText, .nameTooLong],
      s.list kind = .error (.unavailable s.name e.message) := by
  obtain ⟨id, d, hm, hp, hid⟩ : ∃ id d, (id, .directory d) ∈ entries ∧ Path.isPlain id ∧
      ¬ s.Readable kind id d := by
    simpa [AllReadable] using hr
  obtain ⟨e, -, hfails⟩ := h.listed_of_not_readable hm hp hid
  obtain ⟨error, herror⟩ := exists_mapM_eq_error_iff
    (f := fun id => s.listed kind id (Path.join (s.kindDirectory kind) id)).2
    ⟨id, mem_ids.2 ⟨d, hm, hp⟩, _, hfails⟩
  -- The directory that comes first decides, and it is one that cannot be read.
  obtain ⟨first, hfirst, hother⟩ := exists_of_mapM_eq_error herror
  obtain ⟨d', hm', hp'⟩ := mem_ids.1 hfirst
  obtain ⟨e', hmem, hfails'⟩ := h.listed_of_not_readable hm' hp' fun hread => by
    cases (h.listed hm' hp' hread).symm.trans hother
  have hsame := Except.error.inj (hother.symm.trans hfails')
  refine ⟨e', hmem, ?_⟩
  rw [h.list_eq, herror, hsame]
  rfl

/-- The entries of a listing: in strictly ascending order, one for each directory that has a record,
and each what its directory says. -/
structure Lists (kind : Kind) (entries : List (String × Node)) (es : List Entry) : Prop where
  ascending : es.Pairwise fun a b => a.id < b.id
  mem_iff : ∀ e, e ∈ es ↔ ∃ id d, (id, .directory d) ∈ entries ∧ Path.isPlain id ∧
    (Holding.ofDirectory d).shown? kind id = some e

theorem lists_sorted (h : (entries.map Prod.fst).Nodup) : Lists kind entries
    (((ids entries).filterMap (shelved kind entries)).mergeSort fun a b => ¬ b.id < a.id) where
  ascending := by
    have hids : ((ids entries).filterMap (shelved kind entries)).Pairwise fun a b => a.id ≠ b.id := by
      refine List.pairwise_filterMap.2 ((nodup_ids h).imp_of_mem fun hx hy hne a ha b hb => ?_)
      rwa [id_of_shelved ha, id_of_shelved hb]
    exact ((pairwise_mergeSort_key Entry.id _).and (hids.perm (List.mergeSort_perm ..).symm Ne.symm)).imp
      fun hab => lt_of_le_of_ne hab.1 hab.2
  mem_iff e := by
    rw [List.mem_mergeSort, List.mem_filterMap]
    constructor
    · rintro ⟨id, hid, he⟩
      obtain ⟨d, hm, hp⟩ := mem_ids.1 hid
      exact ⟨id, d, hm, hp, by rwa [shelved_of_mem h hm] at he⟩
    · rintro ⟨id, d, hm, hp, he⟩
      exact ⟨id, mem_ids.2 ⟨d, hm, hp⟩, by rwa [shelved_of_mem h hm]⟩

theorem Shelves.lists {es : List Entry} (h : s.Shelves kind entries) (hl : s.list kind = .ok es) :
    Lists kind entries es := by
  by_cases hr : s.AllReadable kind entries
  · cases (h.list_of_readable hr).symm.trans hl
    exact lists_sorted h.distinct
  · obtain ⟨e, -, he⟩ := h.list_of_not_readable hr
    cases he.symm.trans hl

theorem Lists.filter_eq {entries' : List (String × Node)} {es es' : List Entry} {changed : String}
    (hl : Lists kind entries es) (hl' : Lists kind entries' es')
    (hn : (entries.map Prod.fst).Nodup) (hn' : (entries'.map Prod.fst).Nodup)
    (hsame : ∀ id, id ≠ changed → entries'.lookup id = entries.lookup id) :
    es'.filter (fun e => e.id ≠ changed) = es.filter fun e => e.id ≠ changed := by
  refine eq_of_pairwise_lt_of_mem_iff (hl'.ascending.filter _) (hl.ascending.filter _) fun e => ?_
  rw [List.mem_filter, List.mem_filter, hl.mem_iff, hl'.mem_iff]
  refine and_congr_left fun hid => exists_congr fun id => exists_congr fun d => ?_
  rw [← and_assoc, ← and_assoc]
  refine and_congr_left fun he => and_congr_left fun _ => ?_
  obtain rfl := Holding.id_of_shown? he
  rw [← lookup_eq_some_iff_mem hn, ← lookup_eq_some_iff_mem hn', hsame e.id (of_decide_eq_true hid)]

/-- A listing has one entry for each directory with a record, in order, and each depends on what its
own directory has. It is refused if a record has bytes that are no text or a path that is too long,
and only then: what does not decode is an entry too. -/
theorem list_isolates (h : s.Shelves kind entries) :
    (s.AllReadable kind entries → ∃ es, s.list kind = .ok es ∧ Lists kind entries es) ∧
    (¬ s.AllReadable kind entries → ∃ e ∈ [FileError.notText, .nameTooLong],
      s.list kind = .error (.unavailable s.name e.message)) ∧
    ∀ (s' : FileStore) (entries' : List (String × Node)) (changed : String),
      s'.Shelves kind entries' →
      (∀ id, id ≠ changed → entries'.lookup id = entries.lookup id) →
      ∀ es es', s.list kind = .ok es → s'.list kind = .ok es' →
        es'.filter (fun e => e.id ≠ changed) = es.filter fun e => e.id ≠ changed :=
  ⟨fun hr => ⟨_, h.list_of_readable hr, lists_sorted h.distinct⟩, h.list_of_not_readable,
    fun _ _ _ h' hsame _ _ hl hl' => (h.lists hl).filter_eq (h'.lists hl') h.distinct h'.distinct hsame⟩

def sampleShelves (record : Bytes) : List (String × Node) :=
  [("lexer", .directory [(recordFile, .file record)]),
    ("parser", .directory [(recordFile, .file (Bytes.ofText "status: FUTURE\n"))])]

def sampleStore (record : Bytes) : FileStore where
  name := "home"
  root := "/store"
  tree := ⟨.directory [("store", .directory [("chunks", .directory (sampleShelves record))])], []⟩
  latency := 0

theorem ids_sample (record : Bytes) : ids (sampleShelves record) = ["lexer", "parser"] := by
  have hplain : Path.isPlain "lexer" ∧ Path.isPlain "parser" := by decide
  simp [ids, sampleShelves, hplain, Node.isDirectory]

theorem mem_sample {record : Bytes} {id : String} :
    (id, .directory d) ∈ sampleShelves record ↔
      id = "lexer" ∧ d = [(recordFile, .file record)] ∨
      id = "parser" ∧ d = [(recordFile, .file (Bytes.ofText "status: FUTURE\n"))] := by
  simp [sampleShelves]

theorem kindDirectory_sample (record : Bytes) :
    (sampleStore record).kindDirectory .chunk = "/store/chunks" := by
  change Path.join "/store" "chunks" = "/store/chunks"
  decide

theorem shelves_sample (record : Bytes) :
    (sampleStore record).Shelves .chunk (sampleShelves record) := by
  have hnames : (sampleShelves record).map Prod.fst = ["lexer", "parser"] := rfl
  constructor
  case root =>
    have hroot : (sampleStore record).tree.node? "/store" =
        standing (some (.directory [("chunks", .directory (sampleShelves record))])) := by
      rfl
    exact isThere_of_standing hroot
  case lays =>
    rw [Lays, kindDirectory_sample]
    exact .inl (entries_eq_ok_iff.2 ⟨_, by rfl, Node.distinct_of_nodup (hnames ▸ by decide)⟩)
  case named =>
    rw [ids_sample]
    decide
  case regular =>
    intro id d hm hp
    have hne : (referenceFile == recordFile) = false := by decide
    rcases mem_sample.1 hm with ⟨-, rfl⟩ | ⟨-, rfl⟩ <;> simp [List.lookup_cons, hne]

theorem allReadable_sample (text : String) :
    (sampleStore (Bytes.ofText text)).AllReadable .chunk (sampleShelves (Bytes.ofText text)) := by
  intro id d hm hp
  constructor
  case short =>
    rw [kindDirectory_sample]
    have hsizes : ∀ id ∈ ["lexer", "parser"],
        (Path.join (Path.join "/store/chunks" id) recordFile).utf8ByteSize ≤ longestPath := by
      decide
    exact hsizes id (ids_sample (Bytes.ofText text) ▸ mem_ids.2 ⟨d, hm, hp⟩)
  case text =>
    rcases mem_sample.1 hm with ⟨-, rfl⟩ | ⟨-, rfl⟩ <;>
      simp [Holding.ofDirectory, Holding.isText, Bytes.text?_ofText]

theorem list_isolates_misplaced_stage :
    let bad := Bytes.ofText "status: STABLE\n"
    let good := Bytes.ofText "status: ACTIVE\n"
    (sampleStore bad).Shelves .chunk (sampleShelves bad) ∧
      ∃ es es', (sampleStore bad).list .chunk = .ok es ∧ (sampleStore good).list .chunk = .ok es' ∧
        .malformed "lexer" "invalid chunk status: STABLE" ∈ es ∧
        es'.filter (fun e => e.id ≠ "lexer") = es.filter fun e => e.id ≠ "lexer" := by
  intro bad good
  have hbad := shelves_sample bad
  have hgood := shelves_sample good
  obtain ⟨hlist, -, hsame⟩ := list_isolates hbad
  obtain ⟨es, hes, hlists⟩ := hlist (allReadable_sample _)
  obtain ⟨es', hes', -⟩ := (list_isolates hgood).1 (allReadable_sample _)
  refine ⟨hbad, es, es', hes, hes', (hlists.mem_iff _).2 ?_, hsame _ _ "lexer" hgood ?_ es es' hes hes'⟩
  · refine ⟨"lexer", _, mem_sample.2 (.inl ⟨rfl, rfl⟩), by decide, ?_⟩
    decide +kernel
  · intro id hid
    have hb : (id == "lexer") = false := by simpa using hid
    simp [sampleShelves, List.lookup_cons, hb]

/-- Bytes that are no text hide the sound record beside them. -/
theorem list_hidden_by_bytes :
    (sampleStore [255]).Shelves .chunk (sampleShelves [255]) ∧
      (sampleStore [255]).get .chunk "parser" =
        .ok (some (.own ⟨"parser", .chunk, .chunk .future, [], [], .home⟩)) ∧
      (sampleStore [255]).list .chunk =
        .error (.unavailable "home" "stream did not contain valid UTF-8") :=
  ⟨shelves_sample [255], by decide +kernel, by decide +kernel⟩

end FileStore

end CausalWork
