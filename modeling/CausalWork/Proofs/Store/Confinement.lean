import CausalWork.Proofs.Store.Retrieval

namespace CausalWork

theorem Kind.plural_injective {kind kind' : Kind} (h : kind.plural = kind'.plural) : kind = kind' := by
  revert h
  cases kind <;> cases kind' <;> decide

namespace FileTree

variable {t : FileTree} {path name : String}

theorem locate_of_plain {n : Node} (hn : Path.isPlain name) (h : t.node? name = .ok n) :
    t.locate name = .ok (t.start ++ [name]) := by
  have hslash := ((Path.isPlain_iff name).1 hn).2.1
  obtain ⟨names, hlocate, -⟩ := node?_eq_ok_iff.1 h
  obtain ⟨-, hwalk⟩ := locate_eq_ok_iff.1 hlocate
  rw [origin, Path.not_isAbsolute hslash, if_neg Bool.false_ne_true, Path.pieces_of_notMem hslash,
    walk_singleton hn, List.reverse_reverse] at hwalk
  rw [hlocate, ← hwalk]
  cases hstart : t.root.find? t.start with
  | none => simp [hstart] at hwalk
  | some m =>
      cases m with
      | file content => simp [hstart] at hwalk
      | directory entries =>
          simp only [hstart] at hwalk ⊢
          split_ifs at hwalk ⊢
          rfl

end FileTree

namespace FileStore

open FileTree

variable {s : FileStore} {kind kind' : Kind} {id id' file file' : String} {place place' : List String}
  {n n' : Node}

/-- The place of the root of a store. Without a root it is where relative paths start. -/
def top (s : FileStore) : Except FileError (List String) :=
  if s.root = "" then .ok s.tree.start else s.tree.locate s.root

/-- What stands directly in the directory of an id, which is one directly in the directory of its
kind, with the place of that directory. -/
structure Stands (s : FileStore) (kind : Kind) (id file : String) (place : List String) (n : Node) :
    Prop where
  place_eq : ∃ top, s.top = .ok top ∧ place = top ++ [kind.plural, id]
  child : ∃ entries d, s.tree.node? (s.kindDirectory kind) = .ok (.directory entries) ∧
    (id, .directory d) ∈ entries ∧ s.tree.root.find? place = some (.directory d) ∧
    d.lookup file = some n
  path : s.tree.locate (Path.join (Path.join (s.kindDirectory kind) id) file) = .ok (place ++ [file])

def Reads (s : FileStore) (kind : Kind) (id file : String) (place : List String) (text : String) :
    Prop :=
  ∃ content : Bytes, s.Stands kind id file place (.file content) ∧ content.text? = some text

/-- What a record or a reference says that stands directly in the directory of an id. -/
def Says (s : FileStore) (kind : Kind) (id : String) (said : Except Record.Fault Entry) : Prop :=
  ∃ place file text, file ∈ [recordFile, referenceFile] ∧ s.Reads kind id file place text ∧
    decode kind id file text = said

theorem locate_kindDirectory (h : s.tree.node? (s.kindDirectory kind) = .ok n) :
    ∃ top, s.top = .ok top ∧ s.tree.locate (s.kindDirectory kind) = .ok (top ++ [kind.plural]) := by
  have hplain : Path.isPlain kind.plural := by cases kind <;> decide
  unfold top
  by_cases hroot : s.root = ""
  · have hjoin : s.kindDirectory kind = kind.plural := by
      rw [kindDirectory, hroot, Path.join_eq "" ((Path.isPlain_iff _).1 hplain).2.1]
      simp
    rw [hjoin] at h ⊢
    exact ⟨_, if_pos hroot, locate_of_plain hplain h⟩
  · obtain ⟨place, -, hplace, -, -, hlocate⟩ := entry_of_node?_join hroot hplain h
    exact ⟨place, (if_neg hroot).trans hplace, hlocate⟩

theorem exists_stands (hp : Path.isPlain id) (hf : Path.isPlain file)
    (h : s.tree.node? (Path.join (Path.join (s.kindDirectory kind) id) file) = .ok n) :
    ∃ place, s.Stands kind id file place n := by
  obtain ⟨place, d, hplace, hd, hentry, hpath⟩ :=
    entry_of_node?_join (Path.join_ne_empty _ ((Path.isPlain_iff id).1 hp).1) hf h
  obtain ⟨above, entries, habove, hentries, hchild, hlocate⟩ :=
    entry_of_node?_join (s.kindDirectory_ne_empty kind) hp (node?_eq_ok_iff.2 ⟨place, hplace, hd⟩)
  have hkind := node?_eq_ok_iff.2 ⟨above, habove, hentries⟩
  obtain ⟨top, htop, hlocate'⟩ := locate_kindDirectory hkind
  cases habove.symm.trans hlocate'
  cases hplace.symm.trans hlocate
  refine ⟨_, ⟨top, htop, by simp⟩, ⟨entries, d, hkind, ?_, hd, hentry⟩, hpath⟩
  obtain ⟨front, back, rfl, -⟩ := List.lookup_eq_some_iff.1 hchild
  exact List.mem_append_right front List.mem_cons_self

theorem Stands.eq_of_place (h : s.Stands kind id file place n)
    (h' : s.Stands kind' id' file' place n') : kind = kind' ∧ id = id' := by
  obtain ⟨top, htop, hplace⟩ := h.place_eq
  obtain ⟨top', htop', hplace'⟩ := h'.place_eq
  cases htop.symm.trans htop'
  have hnames := List.append_cancel_left (hplace.symm.trans hplace')
  simp only [List.cons.injEq, and_true] at hnames
  exact ⟨Kind.plural_injective hnames.1, hnames.2⟩

theorem exists_reads {text : String} (hp : Path.isPlain id) (hf : Path.isPlain file)
    (h : s.tree.readText (Path.join (Path.join (s.kindDirectory kind) id) file) = .ok text) :
    ∃ place, s.Reads kind id file place text := by
  obtain ⟨content, hnode, htext⟩ := readText_eq_ok_iff.1 h
  obtain ⟨place, hstands⟩ := exists_stands hp hf hnode
  exact ⟨place, content, hstands, htext⟩

/-- How a store answers for an id. A record, or the failure to read one, is what a file says that is
directly in the directory of the id. -/
inductive Gets (s : FileStore) (kind : Kind) (id : String) :
    Except StoreError (Option Entry) → Prop
  | nothing : Gets s kind id (.ok none)
  | failed (e : FileError) : Gets s kind id (.error (.unavailable s.name e.message))
  | record {e : Entry} (h : s.Says kind id (.ok e)) : Gets s kind id (.ok (some e))
  | malformed {fault : Record.Fault} (h : s.Says kind id (.error fault)) :
      Gets s kind id (.error (.malformed s.name kind id fault.message))

theorem says_of_read {text : String} {said : Except Record.Fault Entry} (hp : Path.isPlain id)
    (hfile : file ∈ [recordFile, referenceFile])
    (hread : s.tree.readText (Path.join (Path.join (s.kindDirectory kind) id) file) = .ok text)
    (hsaid : decode kind id file text = said) : s.Says kind id said := by
  obtain ⟨place, hreads⟩ := exists_reads hp (size_of_mem_files hfile).1 hread
  exact ⟨place, file, text, hfile, hreads, hsaid⟩

theorem Loads.gets {answer : Except StoreError (Option Entry)} (hp : Path.isPlain id)
    (h : s.Loads kind id (Path.join (s.kindDirectory kind) id) answer) : s.Gets kind id answer := by
  cases h with
  | nothing => exact .nothing
  | failed e => exact .failed e
  | sound hfile hread he => exact .record (says_of_read hp hfile hread he)
  | malformed hfile hread hfault => exact .malformed (says_of_read hp hfile hread hfault)

theorem gets (s : FileStore) (kind : Kind) (id : String) : s.Gets kind id (s.get kind id) := by
  by_cases hp : Path.isPlain id
  · rw [get_of_plain hp]
    cases s.tree.isThere (Path.join (s.kindDirectory kind) id) with
    | error e => exact .failed e
    | ok there =>
        cases there with
        | false => exact .nothing
        | true => exact (loads s kind id _).gets hp
  · rw [get_of_not_plain hp]
    exact .nothing

def planPath (s : FileStore) (a : Artifact) : String :=
  Path.join (Path.join (s.kindDirectory a.kind) a.id) planFile

theorem content_of_not_plain {a : Artifact} (hp : ¬ Path.isPlain a.id) :
    s.content a = .ok ⟨false⟩ := by
  simp [content, hp, pure, Except.pure]

theorem reads_of_content {a : Artifact} {summary : Summary} (h : s.content a = .ok summary) :
    summary = ⟨false⟩ ∧ (¬ Path.isPlain a.id ∨ s.tree.node? (s.planPath a) = .error .notFound) ∨
      ∃ place text, s.Reads a.kind a.id planFile place text ∧ summary = ⟨Prose.isSubstantive text⟩ := by
  by_cases hp : Path.isPlain a.id
  · rw [content, hp] at h
    obtain ⟨there, hthere, h⟩ := ok_of_bind h
    cases there with
    | false =>
        cases h
        exact .inl ⟨rfl, .inr (isThere_eq_false (ok_of_attempt hthere))⟩
    | true =>
        obtain ⟨text, htext, h⟩ := ok_of_bind h
        obtain ⟨place, hreads⟩ := exists_reads hp (by decide) (ok_of_attempt htext)
        cases h
        exact .inr ⟨place, text, hreads, rfl⟩
  · cases (content_of_not_plain hp).symm.trans h
    exact .inl ⟨rfl, .inl hp⟩

theorem isPlain_of_listed {listed : List Entry} {e : Entry} (hl : s.list kind = .ok listed)
    (he : e ∈ listed) : Path.isPlain e.id := by
  obtain ⟨entries, h⟩ := exists_listing hl
  obtain ⟨d, -, hp⟩ := mem_ids.1 (h.mem_and_id_iff.1 ⟨he, rfl⟩).1
  exact hp

theorem not_isPlain (h : id = "" ∨ id = "." ∨ id = ".." ∨ '/' ∈ id.toList ∨ '\\' ∈ id.toList) :
    ¬ Path.isPlain id := by
  rw [Path.isPlain_iff]
  tauto

/-- A file store never looks outside the directory that an id names: what it finds is in a directory
that has the id for its name, right under that of the kind, and what it reads is directly in it. So
no two ids and no two kinds share a record or a plan, and an id that is no such name has neither. -/
theorem ids_confined (s : FileStore) :
    (∀ kind id, s.Gets kind id (s.get kind id)) ∧
    (∀ a summary, s.content a = .ok summary →
      summary = ⟨false⟩ ∧ (¬ Path.isPlain a.id ∨ s.tree.node? (s.planPath a) = .error .notFound) ∨
      ∃ place text, s.Reads a.kind a.id planFile place text ∧
        summary = ⟨Prose.isSubstantive text⟩) ∧
    (∀ kind id, Path.isPlain id → ∀ file ∈ [recordFile, referenceFile, planFile], ∀ n,
      s.tree.node? (Path.join (Path.join (s.kindDirectory kind) id) file) = .ok n →
      ∃ place, s.Stands kind id file place n) ∧
    (∀ kind id file place n kind' id' file' place' n', s.Stands kind id file place n →
      s.Stands kind' id' file' place' n' → (kind, id) ≠ (kind', id') → place ≠ place') ∧
    ∀ id, id = "" ∨ id = "." ∨ id = ".." ∨ '/' ∈ id.toList ∨ '\\' ∈ id.toList → ∀ kind,
      s.get kind id = .ok none ∧ (∀ listed, s.list kind = .ok listed → id ∉ listed.map Entry.id) ∧
      ∀ a, a.id = id → s.content a = .ok ⟨false⟩ := by
  refine ⟨s.gets, fun a summary => reads_of_content,
    fun kind id hp file hfile n => exists_stands hp ?_,
    fun kind id file place n kind' id' file' place' n' h h' hne hplace => ?_,
    fun id hid kind => ⟨get_of_not_plain (not_isPlain hid), fun listed hl hm => ?_, ?_⟩⟩
  · revert file
    decide
  · obtain ⟨rfl, rfl⟩ := h.eq_of_place (hplace ▸ h')
    exact hne rfl
  · obtain ⟨e, he, rfl⟩ := List.mem_map.1 hm
    exact not_isPlain hid (isPlain_of_listed hl he)
  · rintro a rfl
    exact content_of_not_plain (not_isPlain hid)

def plannedStore : FileStore where
  name := "home"
  root := "/store"
  tree := ⟨.directory [("store", .directory [("chunks", .directory [("lexer", .directory
    [(recordFile, .file (Bytes.ofText "status: FUTURE\n")),
      (planFile, .file (Bytes.ofText "Tokens first.\n"))])])])], []⟩
  latency := 0

theorem ids_confined_planned :
    let lexer : Artifact := ⟨"lexer", .chunk, .chunk .future, [], [], .home⟩
    plannedStore.get .chunk "lexer" = .ok (some (.own lexer)) ∧
      plannedStore.Says .chunk "lexer" (.ok (.own lexer)) ∧
      plannedStore.content lexer = .ok ⟨true⟩ ∧
      (∃ place text, plannedStore.Reads .chunk "lexer" planFile place text ∧
        Prose.isSubstantive text) ∧
      plannedStore.get .chunk "../chunks/lexer" = .ok none := by
  intro lexer
  have hget : plannedStore.get .chunk "lexer" = .ok (some (.own lexer)) := by decide +kernel
  have hcontent : plannedStore.content lexer = .ok ⟨true⟩ := by decide +kernel
  obtain ⟨hgets, hplan, -, -, hdetour⟩ := ids_confined plannedStore
  refine ⟨hget, ?_, hcontent, ?_, (hdetour "../chunks/lexer" (by decide) .chunk).1⟩
  · have h := hgets .chunk "lexer"
    rw [hget] at h
    cases h with
    | record hsays => exact hsays
  · rcases hplan lexer _ hcontent with ⟨hfalse, -⟩ | ⟨place, text, hreads, htrue⟩
    · cases hfalse
    · exact ⟨place, text, hreads, (congrArg Summary.hasSubstantivePlan htrue).symm⟩

end FileStore

end CausalWork
