import CausalWork.Pool.File
import CausalWork.Proofs.FileTree.Growth
import CausalWork.Proofs.Pool.Log
import CausalWork.Proofs.Sequence

namespace CausalWork

open Text

/-- What may be asked of a pool: a call, or a question, which is to change nothing. -/
inductive Request
  | call (c : Call)
  | get (id : Uuid)
  | list
  | history (kind : Kind) (artifactId : String)
  | liveFor (kind : Kind) (artifactId : String)

inductive Response
  | answer (a : Answer)
  | unit (u : Option WorkUnit)
  | units (us : List WorkUnit)

def Request.isQuestion : Request → Bool
  | call _ => false
  | _ => true

namespace Journal

def serve (journal : Journal) : Request → Except PoolError Response × Journal
  | .call c =>
    let (answer, after) := journal.perform c
    (answer.map .answer, after)
  | .get id => ((Pool.get journal id).map .unit, journal)
  | .list => ((Pool.list journal).map .units, journal)
  | .history kind artifactId => ((Pool.history journal kind artifactId).map .units, journal)
  | .liveFor kind artifactId => ((Pool.liveFor journal kind artifactId).map .unit, journal)

/-- A line that is no text, or a text that is neither blank nor an event. -/
def IsBad (line : Bytes) : Prop :=
  ∀ s, line.text? = some s → isBlankText s = false ∧ (Json.parse? s).bind Event.ofJson? = none

theorem isBad_iff (line : Bytes) : IsBad line ↔ ∃ e, event? line = .error e := by
  unfold IsBad event?
  cases line.text? with
  | none => simp
  | some s =>
      simp only [Option.some.injEq, forall_eq']
      generalize (Json.parse? s).bind Event.ofJson? = found
      cases isBlankText s <;> cases found <;> simp

variable {journal after : Journal} {r : Request}

theorem units_eq_error_iff : (∃ e, journal.units = .error e) ↔
    ∃ line ∈ byteLines (journal.getD []), IsBad line := by
  simp only [isBad_iff]
  rw [← exists_mapM_eq_error_iff, units, events]
  cases (byteLines (journal.getD [])).mapM event? <;>
    simp [bind, Except.bind, pure, Except.pure]

theorem serve_of_units_error {e : PoolError} (h : journal.units = .error e) (r : Request) :
    journal.serve r = (.error e, journal) := by
  cases r with
  | call c => cases c <;> simp only [serve, perform, Pool.enqueue, Pool.transition, h] <;> rfl
  | get id =>
      simp only [serve, Pool.get, h]
      rfl
  | list =>
      simp only [serve, Pool.list, h]
      rfl
  | history kind artifactId =>
      simp only [serve, Pool.history, h]
      rfl
  | liveFor kind artifactId =>
      simp only [serve, Pool.liveFor, Pool.history, h]
      rfl

theorem serve_question (h : r.isQuestion) : (journal.serve r).2 = journal := by
  cases r with
  | call c => cases h
  | _ => rfl

theorem serve_of_error {e : PoolError} (h : (journal.serve r).1 = .error e) :
    (journal.serve r).2 = journal := by
  cases hu : journal.units with
  | error e' => rw [serve_of_units_error hu]
  | ok units =>
      cases r with
      | call c =>
          rw [serve, perform_eq hu] at h ⊢
          cases hr : units.react c with
          | error e' => rfl
          | ok told =>
              rw [hr] at h
              cases h
      | _ => rfl

theorem serve_question_of_units {units : Units} (hu : journal.units = .ok units)
    (h : r.isQuestion) : ∃ response, (journal.serve r).1 = .ok response := by
  cases r with
  | call c => cases h
  | get id =>
      simp only [serve, Pool.get, hu]
      exact ⟨_, rfl⟩
  | list =>
      simp only [serve, Pool.list, hu]
      exact ⟨_, rfl⟩
  | history kind artifactId =>
      simp only [serve, Pool.history, hu]
      exact ⟨_, rfl⟩
  | liveFor kind artifactId =>
      simp only [serve, Pool.liveFor, Pool.history, hu]
      exact ⟨_, rfl⟩

end Journal

/-- Every file has the bytes that it had, and where a path leads no file has come to be. -/
structure FileTree.Spares (t t' : FileTree) (path : String) : Prop where
  files : ∀ names content, t.root.find? names = some (.file content) →
    t'.root.find? names = some (.file content)
  read : ∀ content, t.read path = .ok content → t'.read path = .ok content
  unmade : ∀ names content, t'.locate path = .ok names →
    t'.root.find? names = some (.file content) → t.root.find? names = some (.file content)

namespace FileTree

variable {t t' : FileTree} {path : String} {fresh : Set (List String)}

theorem Grows.spares (h : t.Grows t' fresh)
    (hpath : ∀ names, t'.locate path = .ok names → names ∉ fresh) : t.Spares t' path where
  files names content hf := by
    rw [← Node.look_eq_content_iff] at hf ⊢
    exact h.within names _ hf
  read content hr := h.read hr
  unmade names content hl hf := by
    rw [← Node.look_eq_content_iff] at hf ⊢
    rcases h.added names _ hf with hold | hdir | ⟨-, hfresh⟩
    · exact hold
    · cases hdir
    · exact absurd hfresh (hpath names hl)

end FileTree

namespace Pool

open FileTree

variable {t made after : FileTree} {path : String}

theorem notMem_target?_lockFile (h : made.Grows after (made.target? (lockFile path)))
    {names : List String} (hl : after.locate path = .ok names) :
    names ∉ made.target? (lockFile path) := by
  rintro ⟨place, name, ht, rfl⟩
  obtain ⟨front, last, hpieces⟩ := Path.exists_pieces_append path
  have hpath : Path.pieces path = front ++ [last] := by
    have hnone := hpieces "" (by simp)
    simpa using hnone
  obtain ⟨-, front', hp, hw, -, -⟩ := target_eq_ok ht
  obtain ⟨rfl, hname⟩ := List.append_inj' ((hpieces ".lock" (by decide)).symm.trans hp) rfl
  obtain rfl := List.singleton_inj.1 hname
  obtain ⟨hcheck, hwalk⟩ := locate_eq_ok_iff.1 hl
  have horigin : after.origin path = made.origin (lockFile path) := by
    obtain ⟨c, cs, hcs⟩ := List.exists_cons_of_ne_nil
      (show path.toList ≠ [] by simpa using (check_eq_ok_iff.1 hcheck).2.2)
    simp [origin, h.start, Path.isAbsolute, lockFile, hcs]
  -- Both go the same way up to the last name, and there the two names differ.
  rw [hpath, walk_append, horigin, walk_within h.within hw] at hwalk
  rcases walk_singleton_cases hwalk with hsame | hup | hdown
  · simp at hsame
  · have hlength := congrArg List.length hup
    simp only [List.length_append, List.length_singleton, List.length_dropLast] at hlength
    omega
  · have hname := congrArg String.length (List.singleton_inj.1 (List.append_cancel_left hdown))
    simp at hname

theorem spares_lock (t : FileTree) (path : String) : t.Spares (lock t path).2 path := by
  have hmade := grows_makeChain (Path.ancestors ((Path.parent? (lockFile path)).getD "")) t
  have hdirectories : t.Spares (makeDirectories t ((Path.parent? (lockFile path)).getD "")).2 path :=
    hmade.spares fun _ _ => Set.notMem_empty _
  unfold lock
  unfold makeDirectories at hdirectories ⊢
  split
  case h_1 e made heq =>
    rwa [heq] at hdirectories
  case h_2 made heq =>
    rw [heq] at hdirectories hmade
    cases hopen : made.openFile (lockFile path) with
    | error e => exact hdirectories
    | ok after =>
        have hlocked := grows_openFile hopen
        exact ((hmade.mono (Set.empty_subset _)).trans hlocked).spares fun names hl =>
          notMem_target?_lockFile hlocked hl

theorem journal_of_read {content : Bytes} (h : t.read path = .ok content) :
    journal t path = .ok (some content) := by
  obtain ⟨names, hl, hf⟩ := read_eq_ok_iff.1 h
  have hreach : t.isReachable path := by
    rw [isReachable, node?_eq_ok_iff.2 ⟨names, hl, Node.look_eq_content_iff.1 hf⟩]
    rfl
  rw [journal, if_pos hreach, h]
  rfl

variable {α : Type} {operation : Journal → Except PoolError α × Journal}

/-- A file fails and all that has been done is to take the lock, or the operation has been done on
the journal as it was read under the lock. -/
theorem onFile_cases (t : FileTree) (path : String)
    (operation : Journal → Except PoolError α × Journal) :
    (∃ e, onFile t path operation = (.error e, (lock t path).2)) ∨
    ∃ before answer after saved, (lock t path).1 = .ok () ∧
      journal (lock t path).2 path = .ok before ∧ operation before = (answer, after) ∧
      save (lock t path).2 path before after = .ok saved ∧
      onFile t path operation = (answer, saved) := by
  unfold onFile
  obtain ⟨taken, locked⟩ := lock t path
  cases taken with
  | error e => exact .inl ⟨_, rfl⟩
  | ok u =>
      cases hj : journal locked path with
      | error e => exact .inl ⟨.file e, by simp only [hj]⟩
      | ok before =>
          cases ho : operation before with
          | mk answer after =>
              cases hs : save locked path before after with
              | error e => exact .inl ⟨.file e, by simp only [hj, ho, hs]⟩
              | ok saved =>
                  exact .inr ⟨before, answer, after, saved, rfl, rfl, ho, hs, by simp only [hj, ho, hs]⟩

theorem onFile_of_kept {before : Journal} {a : α} (hl : (lock t path).1 = .ok ())
    (hj : journal (lock t path).2 path = .ok before) (ho : operation before = (.ok a, before)) :
    (onFile t path operation).1 = .ok a := by
  unfold onFile
  generalize lock t path = taken at hl hj
  obtain ⟨taken, locked⟩ := taken
  dsimp only at hl hj
  subst hl
  simp only [hj, ho, save, if_pos]

def serveFile (t : FileTree) (path : String) (r : Request) : Except PoolError Response × FileTree :=
  onFile t path fun journal => journal.serve r

theorem serveFile_unchanged {r : Request}
    (h : (∃ e, (serveFile t path r).1 = .error e) ∨ r.isQuestion) :
    (serveFile t path r).2 = (lock t path).2 := by
  unfold serveFile at h ⊢
  rcases onFile_cases t path fun journal => journal.serve r with
    ⟨e, he⟩ | ⟨before, answer, after, saved, -, -, ho, hs, hserved⟩
  · rw [he]
  · rw [hserved] at h ⊢
    have hkept : (Journal.serve before r).2 = before := by
      rcases h with ⟨e, he⟩ | hquestion
      · exact Journal.serve_of_error ((congrArg Prod.fst ho).trans he)
      · exact Journal.serve_question hquestion
    have hsame : after = before := by
      rwa [ho] at hkept
    unfold save at hs
    rw [if_pos hsame] at hs
    exact (Except.ok.inj hs).symm

/-- The pool fails closed. What is refused, and every question, leaves all files as they were, and
with a line in the journal that is neither blank nor an event all is refused. No question is refused
for anything else in the journal. -/
theorem fails_closed (t : FileTree) (path : String) (r : Request) :
    ((∃ e, (serveFile t path r).1 = .error e) ∨ r.isQuestion →
      t.Spares (serveFile t path r).2 path) ∧
    ∀ content, t.read path = .ok content ∨ (lock t path).2.read path = .ok content →
      ((∃ line ∈ Journal.byteLines content, Journal.IsBad line) →
        ∃ e, (serveFile t path r).1 = .error e) ∧
      ((¬ ∃ line ∈ Journal.byteLines content, Journal.IsBad line) → r.isQuestion →
        (lock t path).1 = .ok () → ∃ response, (serveFile t path r).1 = .ok response) := by
  refine ⟨fun h => ?_, fun content hread => ?_⟩
  · rw [serveFile_unchanged h]
    exact spares_lock t path
  have hlocked : journal (lock t path).2 path = .ok (some content) :=
    journal_of_read (hread.elim ((spares_lock t path).read content) id)
  have hunits : (∃ e, Journal.units (some content) = .error e) ↔
      ∃ line ∈ Journal.byteLines content, Journal.IsBad line := Journal.units_eq_error_iff
  rw [← hunits]
  refine ⟨fun ⟨e, he⟩ => ?_, fun hgood hquestion htaken => ?_⟩
  · rcases onFile_cases t path fun journal => journal.serve r with
      ⟨error, hrefused⟩ | ⟨before, answer, after, saved, -, hj, ho, -, hserved⟩
    · exact ⟨error, by rw [serveFile, hrefused]⟩
    · cases hlocked.symm.trans hj
      cases (Journal.serve_of_units_error he r).symm.trans ho
      exact ⟨e, by rw [serveFile, hserved]⟩
  · cases hu : Journal.units (some content) with
    | error e => exact absurd ⟨e, hu⟩ hgood
    | ok units =>
        obtain ⟨response, hresponse⟩ := Journal.serve_question_of_units hu hquestion
        exact ⟨response, onFile_of_kept htaken hlocked
          (Prod.ext hresponse (Journal.serve_question hquestion))⟩

open Journal in
theorem fails_closed_torn_line :
    let t : FileTree :=
      ⟨.directory [("pool.jsonl", .file (line (.enqueued (sampleUnit 0)) ++ [255]))], []⟩
    let r : Request := .call (.enqueue (sampleUnit 1))
    (∃ e, (serveFile t "pool.jsonl" r).1 = .error e) ∧
      t.Spares (serveFile t "pool.jsonl" r).2 "pool.jsonl" := by
  intro t r
  have hread (content : Bytes) : (⟨.directory [("pool.jsonl", .file content)], []⟩ :
      FileTree).read "pool.jsonl" = .ok content := by
    rfl
  have htext : IsBad [255] := by
    have hnone : Bytes.text? [255] = none := by decide
    simp [IsBad, hnone]
  have hbad : ∃ torn ∈ byteLines (line (.enqueued (sampleUnit 0)) ++ [255]), IsBad torn := by
    rw [byteLines_line_append]
    exact ⟨[255], List.mem_cons_of_mem _ (by decide), htext⟩
  obtain ⟨hspared, hrefused⟩ := fails_closed t "pool.jsonl" r
  have herror := (hrefused _ (.inl (hread _))).1 hbad
  exact ⟨herror, hspared (.inl herror)⟩

end Pool

end CausalWork
