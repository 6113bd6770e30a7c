import CausalWork.Proofs.Resolution.Inquiry

namespace CausalWork

/-- One thing that is looked for, and the remotes as they are at that moment. -/
structure Lookup where
  network : Network
  wanted : Wanted

namespace Lookup

def question (l : Lookup) : Question := l.wanted.question

def outcome (l : Lookup) : Outcome := l.network.outcome l.wanted

def learn (m : Memo) (l : Lookup) : Memo :=
  (l.network.lookup l.wanted.kind l.wanted.id l.wanted.pin m).2

end Lookup

namespace Memo

def tell (m : Memo) (q : Question) : Outcome := (m.outcomes.lookup q).getD .unclaimed

theorem lookup_learn (m : Memo) (l : Lookup) (q : Question) :
    (Lookup.learn m l).outcomes.lookup q =
      (m.outcomes.lookup q).or (if l.question = q then some l.outcome else none) := by
  rw [Lookup.learn, Network.lookup_eq, Lookup.question]
  cases hl : m.outcomes.lookup l.wanted.question with
  | some outcome =>
      split_ifs with hq
      · rw [← hq, hl]
        rfl
      · rw [Option.or_none]
  | none =>
      dsimp only
      rw [List.lookup_cons]
      split_ifs with hq
      · rw [← hq, hl, beq_self_eq_true]
        rfl
      · rw [Option.or_none, beq_false_of_ne (Ne.symm hq)]

theorem lookup_foldl_learn (m : Memo) (trail : List Lookup) (q : Question) :
    (trail.foldl Lookup.learn m).outcomes.lookup q = (m.outcomes.lookup q).or
      ((trail.find? fun l => l.question = q).map Lookup.outcome) := by
  induction trail generalizing m with
  | nil => simp
  | cons l trail ih =>
      rw [List.foldl_cons, ih, lookup_learn, Option.or_assoc, List.find?_cons]
      by_cases hq : l.question = q <;> simp [hq]

theorem tell_foldl_of_lookup {m : Memo} {q : Question} {o : Outcome}
    (h : m.outcomes.lookup q = some o) (trail : List Lookup) :
    (trail.foldl Lookup.learn m).tell q = o := by
  rw [tell, lookup_foldl_learn, h]
  rfl

end Memo

/-- A computation that makes these lookups one after another and answers by what they tell, whatever
is looked up later. -/
structure Follows {β : Type} (trail : List Lookup) (reply : (Question → Outcome) → β)
    (x : StateM Memo β) : Prop where
  learns : ∀ m, (x m).2 = trail.foldl Lookup.learn m
  replies : ∀ (m : Memo) (later : List Lookup), (x m).1 = reply (later.foldl Lookup.learn (x m).2).tell

namespace Follows

variable {α β γ : Type}

theorem pure (b : β) : Follows [] (fun _ => b) (Pure.pure b) where
  learns := fun _ => rfl
  replies := fun _ _ => rfl

theorem map {trail : List Lookup} {reply : (Question → Outcome) → β} {x : StateM Memo β}
    (h : Follows trail reply x) (g : β → γ) : Follows trail (fun tell => g (reply tell)) (g <$> x) where
  learns := h.learns
  replies := fun m later => congrArg g (h.replies m later)

theorem lookup (n : Network) (w : Wanted) :
    Follows [⟨n, w⟩] (fun tell => tell w.question) (n.lookup w.kind w.id w.pin) where
  learns := fun _ => rfl
  replies := fun m later => (Memo.tell_foldl_of_lookup (n.lookup_told w m) later).symm

theorem mapM {trail : α → List Lookup} {reply : α → (Question → Outcome) → β}
    {k : α → StateM Memo β} {as : List α} (h : ∀ a ∈ as, Follows (trail a) (reply a) (k a)) :
    Follows (as.flatMap trail) (fun tell => as.map fun a => reply a tell) (as.mapM k) := by
  induction as with
  | nil => exact pure []
  | cons a as ih =>
      have ha := h a List.mem_cons_self
      have has := ih fun b hb => h b (List.mem_cons_of_mem a hb)
      constructor
      case learns =>
        intro m
        rw [mapM_cons_apply, has.learns, ha.learns, List.flatMap_cons, List.foldl_append]
      case replies =>
        intro m later
        -- The rest of the list is looked up later than its head.
        have hhead := ha.replies m (as.flatMap trail ++ later)
        rw [List.foldl_append, ← has.learns] at hhead
        rw [mapM_cons_apply, List.map_cons, hhead]
        exact congrArg _ (has.replies (k a m).2 later)

end Follows

namespace Inquiry

def looksUp (home : Store) : Inquiry → List Wanted
  | resolve kind id =>
    match home.get kind id with
    | .ok (some (.external r)) => [r.wanted]
    | .ok none => [⟨kind, id, none⟩]
    | _ => []
  | reference r => [r.wanted]
  | foreign kind id => [⟨kind, id, none⟩]
  | references refs => refs.map Reference.wanted
  | ids kind all => all.map fun id => ⟨kind, id, none⟩

def reply (home : Store) (tell : Question → Outcome) : Inquiry → Answer
  | resolve kind id => .one <|
    match home.get kind id with
    | .error e => .error (.ofStore e)
    | .ok (some (.own a)) => .ok a
    | .ok (some (.external r)) => r.settle (tell r.question)
    | .ok (some (.malformed id reason)) => .error (.malformedRecord kind id reason)
    | .ok none => (tell ⟨kind, id, none⟩).settle kind id
  | reference r => .one (r.settle (tell r.question))
  | foreign kind id => .one ((tell ⟨kind, id, none⟩).settle kind id)
  | references refs => .references (refs.map fun r => (r, r.settle (tell r.question)))
  | ids kind all => .ids (all.map fun id => (id, (tell ⟨kind, id, none⟩).settle kind id))

end Inquiry

namespace Network

variable (n : Network)

theorem follows_resolveReference (r : Reference) : Follows [⟨n, r.wanted⟩]
    (fun tell => r.settle (tell r.question)) (n.resolveReference r) := by
  rw [resolveReference_eq]
  exact (Follows.lookup n r.wanted).map r.settle

theorem follows_resolveForeign (kind : Kind) (id : String) : Follows [⟨n, ⟨kind, id, none⟩⟩]
    (fun tell => (tell ⟨kind, id, none⟩).settle kind id) (n.resolveForeign kind id) := by
  rw [resolveForeign_eq]
  exact (Follows.lookup n ⟨kind, id, none⟩).map (Outcome.settle kind id)

theorem follows_answer (home : Store) (call : Inquiry) :
    Follows ((call.looksUp home).map (Lookup.mk n)) (fun tell => call.reply home tell)
      (n.answer home call) := by
  cases call with
  | resolve kind id =>
      unfold answer resolve Inquiry.looksUp Inquiry.reply
      dsimp only
      cases hg : home.get kind id with
      | error e => exact (Follows.pure _).map Inquiry.Answer.one
      | ok entry =>
          match entry with
          | none => exact (n.follows_resolveForeign kind id).map Inquiry.Answer.one
          | some (.own a) => exact (Follows.pure _).map Inquiry.Answer.one
          | some (.external r) => exact (n.follows_resolveReference r).map Inquiry.Answer.one
          | some (.malformed id reason) => exact (Follows.pure _).map Inquiry.Answer.one
  | reference r => exact (n.follows_resolveReference r).map Inquiry.Answer.one
  | foreign kind id => exact (n.follows_resolveForeign kind id).map Inquiry.Answer.one
  | references refs =>
      have h := Follows.mapM fun r (_ : r ∈ refs) => (n.follows_resolveReference r).map (Prod.mk r)
      rw [← List.map_eq_flatMap] at h
      unfold Inquiry.looksUp
      rw [List.map_map]
      exact h.map Inquiry.Answer.references
  | ids kind ids =>
      have h := Follows.mapM fun id (_ : id ∈ ids) => (n.follows_resolveForeign kind id).map (Prod.mk id)
      rw [← List.map_eq_flatMap] at h
      unfold Inquiry.looksUp
      rw [List.map_map]
      exact h.map Inquiry.Answer.ids

end Network

end CausalWork
