import CausalWork.Proofs.Resolution.Survey

namespace CausalWork

open Project (request)

namespace Remote

variable {r : Remote} {deadline : Option Nat} {kind : Kind} {id : String} {reply : Reply}

/-- A remote tells of an id before the deadline, if there is one. -/
def InTime (r : Remote) (deadline : Option Nat) (id : String) : Prop :=
  ∀ ms ∈ deadline, r.store.latency id ≤ 1000 * ms

/-- The six ways in which a remote takes a question about an id. -/
inductive Replies (r : Remote) (deadline : Option Nat) (kind : Kind) (id : String) : Reply → Prop
  | own {a : Artifact} (ht : r.InTime deadline id)
      (hg : r.store.get kind id = .ok (some (.own a))) : Replies r deadline kind id (.owned a)
  | external {ref : Reference} (ht : r.InTime deadline id)
      (hg : r.store.get kind id = .ok (some (.external ref))) :
      Replies r deadline kind id .disclaimed
  | nothing (ht : r.InTime deadline id) (hg : r.store.get kind id = .ok none) :
      Replies r deadline kind id .disclaimed
  | malformed {id' reason : String} (ht : r.InTime deadline id)
      (hg : r.store.get kind id = .ok (some (.malformed id' reason))) :
      Replies r deadline kind id (.failed (r.locator.repo ++ ": " ++ ("malformed record: " ++ reason)))
  | broken {e : StoreError} (ht : r.InTime deadline id) (hg : r.store.get kind id = .error e) :
      Replies r deadline kind id (.failed (r.locator.repo ++ ": " ++ e.message))
  | late {ms : Nat} (hd : deadline = some ms) (ht : 1000 * ms < r.store.latency id) :
      Replies r deadline kind id
        (.failed (r.locator.repo ++ ": " ++ ("timed out after " ++ Text.duration ms)))

theorem inTime_iff : r.InTime deadline id ↔ r.isLate deadline id = false := by
  cases deadline <;> simp [InTime, isLate]

theorem ask_of_replies (h : r.Replies deadline kind id reply) : r.ask deadline kind id = reply := by
  cases h with
  | own ht hg | external ht hg | nothing ht hg | malformed ht hg | broken ht hg =>
      simp only [ask, inTime_iff.1 ht, hg, Bool.false_eq_true, if_false]
  | @late ms hd ht =>
      have hlate : r.isLate (some ms) id = true := by simpa [isLate] using ht
      subst hd
      simp only [ask, hlate, if_true, Option.getD_some]

/-- A remote has one reply to each question. -/
theorem replies_iff : r.Replies deadline kind id reply ↔ r.ask deadline kind id = reply := by
  refine ⟨ask_of_replies, ?_⟩
  rintro rfl
  suffices h : ∃ reply, r.Replies deadline kind id reply by
    obtain ⟨reply, h⟩ := h
    rwa [ask_of_replies h]
  by_cases ht : r.InTime deadline id
  · cases hg : r.store.get kind id with
    | error e => exact ⟨_, .broken ht hg⟩
    | ok entry =>
        match entry with
        | none => exact ⟨_, .nothing ht hg⟩
        | some (.own a) => exact ⟨_, .own ht hg⟩
        | some (.external ref) => exact ⟨_, .external ht hg⟩
        | some (.malformed id' reason) => exact ⟨_, .malformed ht hg⟩
  · cases deadline with
    | none => exact absurd (fun ms hms => by cases hms) ht
    | some ms => exact ⟨_, .late rfl (by simpa [InTime] using ht)⟩

end Remote

namespace Network

variable {n : Network} {q : Question} {pin : Option Locator} {deadline : Option Nat}

theorem survey_append {before : List (Nat × Remote)}
    (hb : ∀ c ∈ before, ∀ b, c.2.ask deadline q.kind q.id ≠ .owned b) (pin : Option Locator)
    (later : List (Nat × Remote)) (reasons : List String) (places : List Nat) :
    ∃ more, survey deadline q pin reasons places (before ++ later) =
      survey deadline q pin (more ++ reasons) ((before.map Prod.fst).reverse ++ places) later := by
  induction before generalizing reasons places with
  | nil => exact ⟨[], rfl⟩
  | cons c before ih =>
      have hrest := ih fun c hc => hb c (List.mem_cons_of_mem _ hc)
      have hplaces : ((c :: before).map Prod.fst).reverse ++ places =
          (before.map Prod.fst).reverse ++ c.1 :: places := by simp
      rw [List.cons_append, survey_cons, hplaces]
      cases hc : c.2.ask deadline q.kind q.id with
      | owned b => exact absurd hc (hb c List.mem_cons_self b)
      | disclaimed => exact hrest reasons (c.1 :: places)
      | failed reason =>
          obtain ⟨more, hmore⟩ := hrest (reason :: reasons) (c.1 :: places)
          refine ⟨more ++ [reason], ?_⟩
          rw [List.append_assoc]
          exact hmore

theorem survey_of_owner {before later : List (Nat × Remote)} {place : Nat} {r : Remote} {a : Artifact}
    (hb : ∀ c ∈ before, ∀ b, c.2.ask deadline q.kind q.id ≠ .owned b)
    (ha : r.ask deadline q.kind q.id = .owned a) :
    survey deadline q pin [] [] (before ++ (place, r) :: later) =
      (.found { a with source := .external (pin.getD r.locator) },
        place :: (before.map Prod.fst).reverse) := by
  obtain ⟨more, hs⟩ := survey_append hb pin ((place, r) :: later) [] []
  rw [hs, survey_cons, ha, List.append_nil]

theorem survey_snd_of_unowned {remotes : List (Nat × Remote)}
    (h : ∀ c ∈ remotes, ∀ b, c.2.ask deadline q.kind q.id ≠ .owned b) :
    (survey deadline q pin [] [] remotes).2 = (remotes.map Prod.fst).reverse := by
  obtain ⟨more, hs⟩ := survey_append h pin [] [] []
  rw [List.append_nil, List.append_nil, List.append_nil] at hs
  rw [hs]
  cases more <;> rfl

/-- What it comes to that some remotes are asked about an id in turn: what is told in the end, and
the places of the remotes that were asked, the latest first. -/
structure Consults (deadline : Option Nat) (kind : Kind) (id : String) (remotes : List (Nat × Remote))
    (found : Remote → Artifact → Artifact) (told : Except Failure Artifact) (asked : List Nat) :
    Prop where
  ok_iff : (∃ a, told = .ok a) ↔ ∃ c ∈ remotes, ∃ a, c.2.Replies deadline kind id (.owned a)
  earliest : ∀ before place r later a, remotes = before ++ (place, r) :: later →
    (∀ c ∈ before, ∀ b, ¬ c.2.Replies deadline kind id (.owned b)) →
    r.Replies deadline kind id (.owned a) →
    told = .ok (found r a) ∧ asked = place :: (before.map Prod.fst).reverse
  unowned : (∀ c ∈ remotes, ∀ a, ¬ c.2.Replies deadline kind id (.owned a)) →
    asked = (remotes.map Prod.fst).reverse
  failed : (∀ c ∈ remotes, ∀ a, ¬ c.2.Replies deadline kind id (.owned a)) →
    (∃ c ∈ remotes, ∃ reason, c.2.Replies deadline kind id (.failed reason)) →
    told = .error (.unresolved id (String.intercalate "; "
      (remotes.filterMap fun c => c.2.failure? deadline kind id)))

theorem exists_mem_candidates (repo : Option String) (P : Remote → Prop) :
    (∃ c ∈ n.candidates repo, P c.2) ↔ ∃ r ∈ n.asked repo, P r := by
  rw [← map_snd_candidates]
  constructor
  · rintro ⟨c, hm, hc⟩
    exact ⟨c.2, List.mem_map_of_mem hm, hc⟩
  · rintro ⟨r, hm, hr⟩
    obtain ⟨c, hc, rfl⟩ := List.mem_map.1 hm
    exact ⟨c, hc, hr⟩

theorem claims_iff_replies : n.Claims q ↔
    ∃ c ∈ n.candidates q.repo, ∃ a, c.2.Replies n.deadline q.kind q.id (.owned a) := by
  rw [exists_mem_candidates q.repo fun r => ∃ a, r.Replies n.deadline q.kind q.id (.owned a)]
  simp only [Remote.replies_iff]
  rfl

theorem fails_iff_replies : n.Fails q ↔
    ∃ c ∈ n.candidates q.repo, ∃ reason, c.2.Replies n.deadline q.kind q.id (.failed reason) := by
  rw [exists_mem_candidates q.repo fun r =>
    ∃ reason, r.Replies n.deadline q.kind q.id (.failed reason)]
  simp only [Remote.replies_iff]
  rfl

theorem failures_eq (q : Question) : n.failures q =
    (n.candidates q.repo).filterMap fun c => c.2.failure? n.deadline q.kind q.id := by
  rw [failures, ← map_snd_candidates, List.filterMap_map]
  rfl

theorem inquire_of_candidates (h : n.candidates q.repo ≠ []) (pin : Option Locator) :
    n.inquire q pin = survey n.deadline q pin [] [] (n.candidates q.repo) := by
  rw [inquire]
  split
  · contradiction
  · rfl

theorem inquire_snd_of_unowned (h : ¬ n.Claims q) (pin : Option Locator) :
    (n.inquire q pin).2 = ((n.candidates q.repo).map Prod.fst).reverse := by
  by_cases hc : n.candidates q.repo = []
  · rw [inquire, hc]
    cases q.repo <;> rfl
  · rw [inquire_of_candidates hc, survey_snd_of_unowned]
    intro c hm b hb
    exact h (claims_iff_replies.2 ⟨c, hm, b, Remote.replies_iff.2 hb⟩)

theorem silence_of_fails (h : n.Fails q) :
    n.silence q = .unreachable (String.intercalate "; " (n.failures q)) := by
  obtain ⟨first, rest, hf⟩ := List.exists_cons_of_ne_nil (fails_iff.1 h)
  obtain ⟨r, hr, -⟩ := h
  obtain ⟨r', others, ha⟩ := List.exists_cons_of_ne_nil (List.ne_nil_of_mem hr)
  rw [silence, ha, hf]

theorem silence_cases (n : Network) (q : Question) :
    n.silence q = .unclaimed ∨ ∃ reason, n.silence q = .unreachable reason := by
  rw [silence]
  split
  · exact .inr ⟨_, rfl⟩
  · split
    · exact .inl rfl
    · exact .inr ⟨_, rfl⟩

/-- A question to the remotes is settled by what they reply in turn, for whatever is made of the
outcome, if a find is made an artifact and a reason goes into the failure. -/
theorem consults_inquire (n : Network) (q : Question) (pin : Option Locator)
    (settle : Outcome → Except Failure Artifact) {found : Remote → Artifact → Artifact}
    (hfound : ∀ r a, settle (.found { a with source := .external (pin.getD r.locator) }) =
      .ok (found r a))
    (hunclaimed : ∃ e, settle .unclaimed = .error e)
    (hreason : ∀ reason, settle (.unreachable reason) = .error (.unresolved q.id reason)) :
    Consults n.deadline q.kind q.id (n.candidates q.repo) found (settle (n.inquire q pin).1)
      (n.inquire q pin).2 := by
  have hnone (h : ∀ c ∈ n.candidates q.repo, ∀ a, ¬ c.2.Replies n.deadline q.kind q.id (.owned a)) :
      ¬ n.Claims q := by
    intro hc
    obtain ⟨c, hm, a, ha⟩ := claims_iff_replies.1 hc
    exact h c hm a ha
  constructor
  case ok_iff =>
    rw [← claims_iff_replies, inquire_fst]
    by_cases hc : n.Claims q
    · obtain ⟨r, a, ho⟩ := claims_iff.1 hc
      rw [ho]
      exact iff_of_true ⟨_, hfound r a⟩ hc
    · rw [owner?_eq_none hc]
      refine iff_of_false ?_ hc
      rintro ⟨a, h⟩
      obtain ⟨e, he⟩ := hunclaimed
      rcases n.silence_cases q with hs | ⟨reason, hs⟩
      · rw [hs, he] at h
        cases h
      · rw [hs, hreason] at h
        cases h
  case earliest =>
    intro before place r later a hsplit hb ha
    have hne : n.candidates q.repo ≠ [] := by simp [hsplit]
    rw [inquire_of_candidates hne, hsplit, survey_of_owner
      (fun c hc b h => hb c hc b (Remote.replies_iff.2 h)) (Remote.ask_of_replies ha)]
    exact ⟨hfound r a, rfl⟩
  case unowned =>
    exact fun h => inquire_snd_of_unowned (hnone h) pin
  case failed =>
    intro h hf
    rw [inquire_fst, owner?_eq_none (hnone h), ← failures_eq,
      silence_of_fails (fails_iff_replies.2 hf)]
    exact hreason _

theorem mem_candidates_iff {repo : Option String} {place : Nat} {r : Remote} :
    (place, r) ∈ n.candidates repo ↔
      n.remotes[place]? = some r ∧ ∀ name ∈ repo, r.locator.repo = name := by
  have hplaced : (place, r) ∈ n.remotes.zipIdx.map Prod.swap ↔ n.remotes[place]? = some r := by
    rw [← List.mk_mem_zipIdx_iff_getElem?, List.mem_map]
    constructor
    · rintro ⟨c, hm, hc⟩
      cases hc
      exact hm
    · exact fun hm => ⟨(r, place), hm, rfl⟩
  cases repo with
  | none => exact hplaced.trans (by simp)
  | some repo => exact List.mem_filter.trans (and_congr hplaced (by simp))

theorem mem_survey_snd {remotes : List (Nat × Remote)}
    {reasons : List String} {places : List Nat} {place : Nat}
    (h : place ∈ (survey deadline q pin reasons places remotes).2) :
    place ∈ places ∨ ∃ r, (place, r) ∈ remotes := by
  induction remotes generalizing reasons places with
  | nil =>
      left
      cases reasons <;> exact h
  | cons c remotes ih =>
      have hcons {place' : Nat} (h : place' ∈ c.1 :: places ∨ ∃ r, (place', r) ∈ remotes) :
          place' ∈ places ∨ ∃ r, (place', r) ∈ c :: remotes := by
        rcases h with h | ⟨r, h⟩
        · rcases List.mem_cons.1 h with rfl | h
          · exact .inr ⟨c.2, List.mem_cons_self⟩
          · exact .inl h
        · exact .inr ⟨r, List.mem_cons_of_mem _ h⟩
      rw [survey_cons] at h
      cases hc : c.2.ask deadline q.kind q.id with
      | owned a =>
          rw [hc] at h
          exact hcons (.inl h)
      | disclaimed | failed =>
          rw [hc] at h
          exact hcons (ih h)

theorem mem_inquire_snd {place : Nat} (h : place ∈ (n.inquire q pin).2) :
    ∃ r, (place, r) ∈ n.candidates q.repo := by
  rw [inquire] at h
  split at h
  · cases h
  · rcases mem_survey_snd h with h | h
    · cases h
    · exact h

theorem resolveForeign_asked (n : Network) (kind : Kind) (id : String) :
    (n.resolveForeign kind id Memo.empty).2.asked = (n.inquire ⟨kind, id, none⟩ none).2 := by
  rw [resolveForeign_eq]
  exact List.append_nil _

theorem resolveReference_asked (n : Network) (r : Reference) :
    (n.resolveReference r Memo.empty).2.asked = (n.inquire r.question (some r.locator)).2 := by
  rw [resolveReference_eq]
  exact List.append_nil _

theorem consults_resolveForeign (n : Network) (kind : Kind) (id : String) :
    Consults n.deadline kind id (n.candidates none) (fun r a => { a with source := .external r.locator })
      (n.resolveForeign kind id Memo.empty).1 (n.resolveForeign kind id Memo.empty).2.asked := by
  have h := n.consults_inquire ⟨kind, id, none⟩ none (Outcome.settle kind id) (fun _ _ => rfl)
    ⟨_, rfl⟩ fun _ => rfl
  rwa [resolveForeign_asked, resolveForeign_empty]

theorem consults_resolveReference (n : Network) (r : Reference) :
    Consults n.deadline r.kind r.id (n.candidates (some r.locator.repo)) (fun _ a => r.claim a)
      (n.resolveReference r Memo.empty).1 (n.resolveReference r Memo.empty).2.asked := by
  have h := n.consults_inquire r.question (some r.locator) r.settle (fun _ _ => rfl) ⟨_, rfl⟩
    fun _ => rfl
  rwa [resolveReference_asked, resolveReference_empty]

theorem notFound_iff_disclaimed (n : Network) (kind : Kind) (id : String) :
    (n.resolveForeign kind id Memo.empty).1 = .error (.notFound kind id) ↔
      ∀ r ∈ n.remotes, r.Replies n.deadline kind id .disclaimed := by
  simp only [Remote.replies_iff]
  have hall := disclaimed_iff (n := n) (q := ⟨kind, id, none⟩)
  refine ⟨fun h => hall.1 ?_, resolveForeign_of_disclaimed⟩
  have hc : ¬ n.Claims ⟨kind, id, none⟩ := by
    intro hc
    obtain ⟨r, a, ho⟩ := claims_iff.1 hc
    cases (resolveForeign_of_owner ho).symm.trans h
  refine ⟨hc, fun hf => ?_⟩
  obtain ⟨reason, he⟩ := resolveForeign_of_fails hc hf
  cases he.symm.trans h

theorem resolveReference_ne_notFound (n : Network) (r : Reference) (kind : Kind) (id : String) :
    (n.resolveReference r Memo.empty).1 ≠ .error (.notFound kind id) := by
  intro h
  by_cases hc : n.Claims r.question
  · obtain ⟨remote, a, ho⟩ := claims_iff.1 hc
    cases (resolveReference_of_owner ho).symm.trans h
  · obtain ⟨reason, he⟩ := resolveReference_of_unclaimed hc
    cases he.symm.trans h

theorem resolveReference_of_disclaimed {r : Reference}
    (h : ∀ c ∈ n.candidates (some r.locator.repo), c.2.Replies n.deadline r.kind r.id .disclaimed) :
    (n.resolveReference r Memo.empty).1 = .error (.unresolved r.id
      (if (n.candidates (some r.locator.repo)).isEmpty then
        "no remote configured for " ++ r.locator.repo
      else "not found in " ++ r.locator.toText)) := by
  have hall : ∀ remote ∈ n.asked (some r.locator.repo),
      remote.ask n.deadline r.kind r.id = .disclaimed := by
    intro remote hr
    rw [← map_snd_candidates] at hr
    obtain ⟨c, hc, rfl⟩ := List.mem_map.1 hr
    exact Remote.replies_iff.1 (h c hc)
  obtain ⟨hc, hf⟩ := (disclaimed_iff (n := n) (q := r.question)).2 hall
  have hempty : (n.candidates (some r.locator.repo)).isEmpty = (n.asked r.question.repo).isEmpty := by
    rw [← map_snd_candidates, List.isEmpty_map]
    rfl
  have hfail : n.failures r.question = [] := Decidable.not_not.1 (mt fails_iff.2 hf)
  rw [resolveReference_empty, inquire_fst, owner?_eq_none hc, silence, hempty, hfail]
  cases n.asked r.question.repo <;> rfl

theorem resolve_own {home : Store} {kind : Kind} {id : String} {a : Artifact}
    (h : home.get kind id = .ok (some (.own a))) (memo : Memo) :
    n.resolve home kind id memo = (.ok a, memo) := by
  rw [resolve, h]
  rfl

/-- Remotes are asked in the order in which they are configured, up to the first that owns an id. An
id that all of them disclaim is unknown. A reference goes to the remotes of its own repository,
keeps its own locator and parents, and is never unknown; and what home owns nobody is asked for. -/
theorem first_owner_decides (n : Network) (kind : Kind) (id : String) (ref : Reference) :
    let foreign := n.resolveForeign kind id Memo.empty
    let referred := n.resolveReference ref Memo.empty
    let eligible := n.candidates (some ref.locator.repo)
    Consults n.deadline kind id (n.candidates none)
        (fun r a => { a with source := .external r.locator }) foreign.1 foreign.2.asked ∧
      (foreign.1 = .error (.notFound kind id) ↔
        ∀ r ∈ n.remotes, r.Replies n.deadline kind id .disclaimed) ∧
      Consults n.deadline ref.kind ref.id eligible
        (fun _ a => { a with source := .external ref.locator, createdAfter := ref.createdAfter })
        referred.1 referred.2.asked ∧
      ((∀ c ∈ eligible, c.2.Replies n.deadline ref.kind ref.id .disclaimed) →
        referred.1 = .error (.unresolved ref.id (if eligible.isEmpty
          then "no remote configured for " ++ ref.locator.repo
          else "not found in " ++ ref.locator.toText))) ∧
      (∀ kind id, referred.1 ≠ .error (.notFound kind id)) ∧
      (n.candidates none).map Prod.snd = n.remotes ∧
      eligible.map Prod.snd = n.remotes.filter (fun r => r.locator.repo = ref.locator.repo) ∧
      (∀ place r, (place, r) ∈ eligible ↔
        n.remotes[place]? = some r ∧ r.locator.repo = ref.locator.repo) ∧
      (∀ place ∈ referred.2.asked, ∃ r, (place, r) ∈ eligible) ∧
      (∀ (r : Remote) kind id reason, r.failure? n.deadline kind id = some reason ↔
        r.Replies n.deadline kind id (.failed reason)) ∧
      ∀ home memo a, home.get kind id = .ok (some (.own a)) →
        n.resolve home kind id memo = (.ok a, memo) := by
  refine ⟨consults_resolveForeign n kind id, notFound_iff_disclaimed n kind id,
    consults_resolveReference n ref, resolveReference_of_disclaimed,
    resolveReference_ne_notFound n ref, map_snd_candidates none, map_snd_candidates (some _), ?_, ?_, ?_,
    fun home memo a h => resolve_own h memo⟩
  · exact fun place r => mem_candidates_iff.trans (by simp)
  · intro place h
    rw [resolveReference_asked] at h
    exact mem_inquire_snd h
  · exact fun r kind id reason => Remote.failure?_eq_some.trans Remote.replies_iff.symm

end Network

end CausalWork
