import CausalWork.Config
import CausalWork.Proofs.FileTree.Absolute
import Mathlib.Data.List.Induction

namespace CausalWork.Config

open FileTree

def settingsIn (d : List String) : List String := d ++ [directory, fileName]

/-- Of the directories at or above the start, the deepest one that has a settings file. -/
structure Nearest (root : Node) (start d : List String) : Prop where
  above : d <+: start
  here : PathExists root (settingsIn d)
  deepest : ∀ e, e <+: start → PathExists root (settingsIn e) → e <+: d

def Reads (root : Node) (d : List String) (text : String) : Prop :=
  ∃ content : Bytes, root.find? (settingsIn d) = some (.file content) ∧ content.text? = some text

/-- What is loaded, told of the files, the surroundings and which directory is near enough for its
settings to decide. Nothing else of the place where a run starts comes into it. -/
inductive Decides (root : Node) (around : Surroundings) (near : List String → Prop) :
    Except ConfigError Config → Prop
  | homeless (hu : around.user = none) : Decides root around near (.error .noUserDirectory)
  | alone {user : String} (hu : around.user = some user) (hd : ∀ d, ¬ near d) :
      Decides root around near (.ok (unconfigured around (Path.join user directory)))
  | unreadable {user : String} {d : List String} (hu : around.user = some user) (hd : near d)
      (hr : ∀ text, ¬ Reads root d text) :
      Decides root around near (.error (.unreadable (absolute (settingsIn d))))
  | invalid {user text : String} {d : List String} (hu : around.user = some user) (hd : near d)
      (hr : Reads root d text) (hs : Settings.ofText? text = none) :
      Decides root around near (.error (.invalid (absolute (settingsIn d))))
  | used {user text : String} {d : List String} {s : Settings} (hu : around.user = some user)
      (hd : near d) (hr : Reads root d text) (hs : Settings.ofText? text = some s) :
      Decides root around near
        (.ok (ofSettings ⟨root, d⟩ around (Path.join user directory) (absolute (settingsIn d)) s))

variable {t : FileTree} {root : Node} {around : Surroundings} {start start' d e : List String}

theorem isEntryName_directory : IsEntryName directory := by decide

theorem isEntryName_fileName : IsEntryName fileName := by decide

theorem settingsIn_ne_nil (d : List String) : settingsIn d ≠ [] := by simp [settingsIn]

theorem isEntryName_settingsIn (h : ∀ name ∈ d, IsEntryName name) :
    ∀ name ∈ settingsIn d, IsEntryName name := by
  intro name hname
  rcases List.mem_append.1 hname with hd | hname
  · exact h name hd
  · rcases List.mem_pair.1 hname with rfl | rfl
    · exact isEntryName_directory
    · exact isEntryName_fileName

theorem isEntryName_of_above (h : ∀ name ∈ start, IsEntryName name) (hd : d <+: start) :
    ∀ name ∈ d, IsEntryName name := fun name hname => h name (hd.subset hname)

theorem join_settingsIn (h : ∀ name ∈ d, IsEntryName name) :
    Path.join (Path.join (absolute d) directory) fileName = absolute (settingsIn d) := by
  have hd : ∀ name ∈ d ++ [directory], IsEntryName name := fun name hname =>
    (List.mem_append.1 hname).elim (h name) fun hm => List.mem_singleton.1 hm ▸ isEntryName_directory
  rw [join_absolute h isEntryName_directory.slash_notMem,
    join_absolute hd isEntryName_fileName.slash_notMem, List.append_assoc]
  rfl

theorem Nearest.unique (h : Nearest root start d) (h' : Nearest root start e) : d = e :=
  (h'.deepest d h.above h.here).eq_of_length_le (h.deepest e h'.above h'.here).length_le

theorem nearest_nil_iff : Nearest root [] d ↔ d = [] ∧ PathExists root (settingsIn []) := by
  constructor
  · intro h
    obtain rfl := List.prefix_nil.1 h.above
    exact ⟨rfl, h.here⟩
  · rintro ⟨rfl, hhere⟩
    exact ⟨List.prefix_rfl, hhere, fun e he _ => he⟩

theorem nearest_concat_of_exists {name : String}
    (hhere : PathExists root (settingsIn (start ++ [name]))) :
    Nearest root (start ++ [name]) d ↔ d = start ++ [name] := by
  have hself : Nearest root (start ++ [name]) (start ++ [name]) :=
    ⟨List.prefix_rfl, hhere, fun e he _ => he⟩
  exact ⟨fun h => h.unique hself, fun h => h ▸ hself⟩

theorem nearest_concat_of_not_exists {name : String}
    (hhere : ¬ PathExists root (settingsIn (start ++ [name]))) :
    Nearest root (start ++ [name]) d ↔ Nearest root start d := by
  have habove {e : List String} (he : PathExists root (settingsIn e)) :
      e <+: start ++ [name] ↔ e <+: start := by
    rw [List.prefix_concat_iff, or_iff_right]
    rintro rfl
    exact hhere he
  constructor
  · intro h
    exact ⟨(habove h.here).1 h.above, h.here, fun e hp he => h.deepest e ((habove he).2 hp) he⟩
  · intro h
    exact ⟨(habove h.here).2 h.above, h.here, fun e hp he => h.deepest e ((habove he).1 hp) he⟩

theorem exists_nearest_iff :
    (∃ d, Nearest root start d) ↔ ∃ d, d <+: start ∧ PathExists root (settingsIn d) := by
  refine ⟨fun ⟨d, h⟩ => ⟨d, h.above, h.here⟩, ?_⟩
  rintro ⟨d, hd, hhere⟩
  induction start using List.reverseRecOn with
  | nil =>
      obtain rfl := List.prefix_nil.1 hd
      exact ⟨[], nearest_nil_iff.2 ⟨rfl, hhere⟩⟩
  | append_singleton start name ih =>
      by_cases hlast : PathExists root (settingsIn (start ++ [name]))
      · exact ⟨_, (nearest_concat_of_exists hlast).2 rfl⟩
      · rcases List.prefix_concat_iff.1 hd with rfl | hd
        · exact absurd hhere hlast
        · obtain ⟨e, he⟩ := ih hd
          exact ⟨e, (nearest_concat_of_not_exists hlast).2 he⟩

theorem find?_candidates {file : String} (h : ∀ name ∈ start, IsEntryName name) :
    (candidates start.reverse).find? t.isReachable = some file ↔
      ∃ d, Nearest t.root start d ∧ absolute (settingsIn d) = file := by
  have hreach {d : List String} (hd : ∀ name ∈ d, IsEntryName name) :
      t.isReachable (absolute (settingsIn d)) ↔ PathExists t.root (settingsIn d) :=
    isReachable_absolute (isEntryName_settingsIn hd) (settingsIn_ne_nil d)
  -- A name more at the end is one more place to look, before all others.
  induction start using List.reverseRecOn with
  | nil =>
      rw [List.reverse_nil, candidates, join_settingsIn h, List.find?_singleton]
      by_cases hhere : PathExists t.root (settingsIn [])
      · simp [(hreach h).2 hhere, nearest_nil_iff, hhere]
      · simp [mt (hreach h).1 hhere, nearest_nil_iff, hhere]
  | append_singleton start name ih =>
      have habove := isEntryName_of_above h (List.prefix_append start [name])
      rw [List.reverse_append, List.reverse_singleton, List.singleton_append, candidates,
        List.reverse_cons, List.reverse_reverse, join_settingsIn h]
      by_cases hhere : PathExists t.root (settingsIn (start ++ [name]))
      · rw [List.find?_cons_of_pos ((hreach h).2 hhere)]
        simp [nearest_concat_of_exists hhere]
      · rw [List.find?_cons_of_neg (mt (hreach h).1 hhere)]
        simp only [nearest_concat_of_not_exists hhere]
        exact ih habove

theorem file?_eq_some (h : ∀ name ∈ start, IsEntryName name) (hd : Nearest root start d) :
    file? ⟨root, start⟩ = some (absolute (settingsIn d)) :=
  (find?_candidates h).2 ⟨d, hd, rfl⟩

theorem file?_eq_none (h : ∀ name ∈ start, IsEntryName name) (hd : ∀ d, ¬ Nearest root start d) :
    file? ⟨root, start⟩ = none := by
  rw [Option.eq_none_iff_forall_ne_some]
  intro file hfile
  obtain ⟨d, hnear, -⟩ := (find?_candidates h).1 hfile
  exact hd d hnear

theorem readText_settingsIn {text : String} (h : ∀ name ∈ d, IsEntryName name)
    (hhere : PathExists t.root (settingsIn d)) :
    t.readText (absolute (settingsIn d)) = .ok text ↔ Reads t.root d text := by
  simp only [readText_eq_ok_iff, Reads,
    node?_absolute (isEntryName_settingsIn h) (settingsIn_ne_nil d), hhere.short, true_and]

theorem resolvePath_of_isAbsolute {base : String} (start start' : List String)
    (h : Path.isAbsolute base) (path : String) :
    resolvePath ⟨root, start⟩ base path = resolvePath ⟨root, start'⟩ base path := by
  simp only [resolvePath, canonical_of_isAbsolute start start' (Path.isAbsolute_join_of_base h path)]

theorem ofSettings_settingsIn (h : ∀ name ∈ d, IsEntryName name) (user : String) (s : Settings) :
    ofSettings t around user (absolute (settingsIn d)) s =
      let home := around.home.getD (s.home.elim user (resolvePath t (absolute (d ++ [directory]))))
      { home
        artifacts := around.artifacts.getD
          (s.artifacts.elim (Path.join home "artifacts") (resolvePath t (absolute d)))
        remotes := s.remotes.map fun c => { c with root := resolvePath t (absolute d) c.root }
        deadline := s.deadline
        file := some (absolute (settingsIn d)) } := by
  have hfile : settingsIn d = d ++ [directory] ++ [fileName] := by simp [settingsIn]
  have hnames : ∀ name ∈ d ++ [directory] ++ [fileName], IsEntryName name :=
    hfile ▸ isEntryName_settingsIn h
  have hbeside : Path.parent? (absolute (settingsIn d)) = some (absolute (d ++ [directory])) := by
    rw [hfile, parent?_absolute hnames]
  have hbase : Path.parent? (absolute (d ++ [directory])) = some (absolute d) :=
    parent?_absolute fun name hname => hnames name (List.mem_append_left _ hname)
  simp only [ofSettings, hbeside, hbase, Option.getD_some]

theorem ofSettings_start (h : ∀ name ∈ d, IsEntryName name) (start start' : List String)
    (user : String) (s : Settings) :
    ofSettings ⟨root, start⟩ around user (absolute (settingsIn d)) s =
      ofSettings ⟨root, start'⟩ around user (absolute (settingsIn d)) s := by
  have hresolve (names : List String) : resolvePath ⟨root, start⟩ (absolute names) =
      resolvePath ⟨root, start'⟩ (absolute names) := by
    funext path
    exact resolvePath_of_isAbsolute start start' (isAbsolute_absolute names) path
  rw [ofSettings_settingsIn h, ofSettings_settingsIn h, hresolve, hresolve]

theorem exists_decides (root : Node) (around : Surroundings) (near : List String → Prop) :
    ∃ r, Decides root around near r := by
  cases hu : around.user with
  | none => exact ⟨_, .homeless hu⟩
  | some user =>
      by_cases hnear : ∃ d, near d
      · obtain ⟨d, hd⟩ := hnear
        by_cases hread : ∃ text, Reads root d text
        · obtain ⟨text, hr⟩ := hread
          cases hs : Settings.ofText? text with
          | none => exact ⟨_, .invalid hu hd hr hs⟩
          | some s => exact ⟨_, .used hu hd hr hs⟩
        · exact ⟨_, .unreadable hu hd (not_exists.1 hread)⟩
      · exact ⟨_, .alone hu (not_exists.1 hnear)⟩

theorem load_of_decides {r : Except ConfigError Config} (h : ∀ name ∈ start, IsEntryName name)
    (hr : Decides root around (Nearest root start) r) : load ⟨root, start⟩ around = r := by
  have hread {d : List String} {text : String} (hd : Nearest root start d) :
      (⟨root, start⟩ : FileTree).readText (absolute (settingsIn d)) = .ok text ↔
        Reads root d text :=
    readText_settingsIn (isEntryName_of_above h hd.above) hd.here
  cases hr with
  | homeless hu => simp only [load, hu]
  | alone hu hd => simp only [load, hu, file?_eq_none h hd]
  | @unreadable user d hu hd hr =>
      simp only [load, hu, file?_eq_some h hd]
      cases htext : (⟨root, start⟩ : FileTree).readText (absolute (settingsIn d)) with
      | error e => rfl
      | ok text => exact absurd ((hread hd).1 htext) (hr text)
  | invalid hu hd hr hs => simp only [load, hu, file?_eq_some h hd, (hread hd).2 hr, hs]
  | used hu hd hr hs =>
      simp only [load, hu, file?_eq_some h hd, (hread hd).2 hr, hs]
      rw [ofSettings_start (isEntryName_of_above h hd.above) start]

theorem load_eq_iff {r : Except ConfigError Config} (h : ∀ name ∈ start, IsEntryName name) :
    load ⟨root, start⟩ around = r ↔ Decides root around (Nearest root start) r := by
  refine ⟨?_, load_of_decides h⟩
  rintro rfl
  obtain ⟨r, hr⟩ := exists_decides root around (Nearest root start)
  rwa [load_of_decides h hr]

theorem file_of_load {c : Config} (h : ∀ name ∈ start, IsEntryName name)
    (hc : load ⟨root, start⟩ around = .ok c) (file : String) :
    c.file = some file ↔ ∃ d, Nearest root start d ∧ file = absolute (settingsIn d) := by
  cases (load_eq_iff h).1 hc with
  | alone hu hd =>
      have hnone (d : List String) : ¬ (Nearest root start d ∧ file = absolute (settingsIn d)) :=
        fun hn => hd d hn.1
      simp [unconfigured, hnone]
  | used hu hd hr hs =>
      simp only [ofSettings, Option.some.injEq]
      constructor
      · rintro rfl
        exact ⟨_, hd, rfl⟩
      · rintro ⟨e, he, rfl⟩
        rw [hd.unique he]

theorem exists_load_error (h : ∀ name ∈ start, IsEntryName name) (hd : Nearest root start d)
    (hbad : ∀ text s, Reads root d text → Settings.ofText? text ≠ some s) :
    ∃ e, load ⟨root, start⟩ around = .error e := by
  cases hr : load ⟨root, start⟩ around with
  | error e => exact ⟨e, rfl⟩
  | ok c =>
      cases (load_eq_iff h).1 hr with
      | alone hu hnone => exact absurd hd (hnone d)
      | used hu hnear hread hs => exact absurd hs (hbad _ _ (hd.unique hnear ▸ hread))

/-- The nearest settings file decides, wherever below it a run starts. What is loaded is what that
one file says, or what holds without one if no directory at or above the start has any. If it cannot
be read or holds no settings, nothing is loaded, and no other file is tried. Two starts with the
same nearest file, or both with none, load the same. Without a directory of the user no start loads
anything. -/
theorem nearest_file_decides (root : Node) (around : Surroundings) {start : List String}
    (h : ∀ name ∈ start, IsEntryName name) :
    (∀ r, load ⟨root, start⟩ around = r ↔ Decides root around (Nearest root start) r) ∧
    (∀ c, load ⟨root, start⟩ around = .ok c →
      (∀ file, c.file = some file ↔ ∃ d, Nearest root start d ∧ file = absolute (settingsIn d)) ∧
      (c.file = none ↔ ∀ d, d <+: start → ¬ PathExists root (settingsIn d))) ∧
    (∀ d, Nearest root start d →
      (∀ text s, Reads root d text → Settings.ofText? text ≠ some s) →
      ∃ e, load ⟨root, start⟩ around = .error e) ∧
    ∀ start' : List String, (∀ name ∈ start', IsEntryName name) →
      (∀ d, Nearest root start d ↔ Nearest root start' d) →
      load ⟨root, start⟩ around = load ⟨root, start'⟩ around := by
  refine ⟨fun r => load_eq_iff h, fun c hc => ⟨file_of_load h hc, ?_⟩,
    fun d hd => exists_load_error h hd, fun start' h' hsame => ?_⟩
  · have hnone : c.file = none ↔ ¬ ∃ d, Nearest root start d := by
      simp only [Option.eq_none_iff_forall_ne_some, ne_eq, file_of_load h hc]
      constructor
      · rintro hfile ⟨d, hd⟩
        exact hfile _ ⟨d, hd, rfl⟩
      · rintro hnear file ⟨d, hd, -⟩
        exact hnear ⟨d, hd⟩
    rw [hnone, exists_nearest_iff]
    simp only [not_exists, not_and]
  · have hnear : Nearest root start = Nearest root start' := funext fun d => propext (hsame d)
    rw [load_eq_iff h, hnear, ← load_eq_iff h']

def nestedRoot : Node :=
  let settings (text : String) : String × Node :=
    (directory, .directory [(fileName, .file (Bytes.ofText text))])
  .directory [("project", .directory
    [settings "version: '1'\npaths:\n  artifacts: docs\nremotes:\n- repo: lib\n  path: app/../lib\n",
      ("docs", .directory []), ("app", .directory [("src", .directory [])]),
      ("lib", .directory [settings "version: [\n", ("core", .directory [])])])]

/-- In the part its own file is the nearest: it stops the run, and that of the project is not used.
Elsewhere in the project it does not matter where a run starts. -/
theorem nearest_file_decides_nested :
    let around : Surroundings := ⟨some "/user", none, none⟩
    let src := ["project", "app", "src"]
    let core := ["project", "lib", "core"]
    (∀ name ∈ src, IsEntryName name) ∧ (∀ name ∈ core, IsEntryName name) ∧
      Nearest nestedRoot src ["project"] ∧ Nearest nestedRoot core ["project", "lib"] ∧
      load ⟨nestedRoot, src⟩ around = load ⟨nestedRoot, ["project"]⟩ around ∧
      (∃ c, load ⟨nestedRoot, src⟩ around = .ok c ∧ c.artifacts = "/project/docs" ∧
        c.remotes = [⟨⟨"lib", none, none⟩, "/project/lib"⟩] ∧
        c.file = some "/project/.causeway/config.yaml") ∧
      load ⟨nestedRoot, core⟩ around = .error (.invalid "/project/lib/.causeway/config.yaml") := by
  intro around src core
  have hproject : ∀ name ∈ ["project"], IsEntryName name := by decide
  have hsrc : ∀ name ∈ src, IsEntryName name := by decide
  have hcore : ∀ name ∈ core, IsEntryName name := by decide
  have hthere : PathExists nestedRoot (settingsIn ([] ++ ["project"])) := by decide
  have hbad : PathExists nestedRoot (settingsIn (["project"] ++ ["lib"])) := by decide
  have hnear (d : List String) :
      Nearest nestedRoot src d ↔ Nearest nestedRoot ["project"] d := by
    have hout : ¬ PathExists nestedRoot (settingsIn (["project", "app"] ++ ["src"])) := by decide
    have hup : ¬ PathExists nestedRoot (settingsIn (["project"] ++ ["app"])) := by decide
    exact (nearest_concat_of_not_exists hout).trans (nearest_concat_of_not_exists hup)
  have hown : Nearest nestedRoot core ["project", "lib"] := by
    have hout : ¬ PathExists nestedRoot (settingsIn (["project", "lib"] ++ ["core"])) := by decide
    exact (nearest_concat_of_not_exists hout).2
      ((nearest_concat_of_exists hbad).2 rfl)
  have hfirst : Nearest nestedRoot ["project"] ["project"] :=
    (nearest_concat_of_exists hthere).2 rfl
  obtain ⟨-, hfile, -, hsame⟩ := nearest_file_decides nestedRoot around hsrc
  obtain ⟨hused, -, -, -⟩ := nearest_file_decides nestedRoot around hcore
  refine ⟨hsrc, hcore, (hnear _).2 hfirst, hown, hsame _ hproject hnear, ?_, ?_⟩
  · have hload : load ⟨nestedRoot, src⟩ around = .ok ⟨"/user/.causeway", "/project/docs",
        [⟨⟨"lib", none, none⟩, "/project/lib"⟩], none, some "/project/.causeway/config.yaml"⟩ := by
      decide +kernel
    have hnamed := ((hfile _ hload).1 "/project/.causeway/config.yaml").2
      ⟨["project"], (hnear _).2 hfirst, by decide⟩
    exact ⟨_, hload, rfl, rfl, hnamed⟩
  · have hpath : absolute (settingsIn ["project", "lib"]) = "/project/lib/.causeway/config.yaml" := by
      decide
    have hread : Reads nestedRoot ["project", "lib"] "version: [\n" := ⟨_, rfl, by decide +kernel⟩
    have hbroken : Settings.ofText? "version: [\n" = none := by decide +kernel
    rw [← hpath]
    exact (hused _).2 (.invalid rfl hown hread hbroken)

end CausalWork.Config
