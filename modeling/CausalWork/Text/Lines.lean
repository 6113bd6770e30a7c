namespace CausalWork.Text

variable {α : Type} [DecidableEq α]

def closeLine (ret : α) : List α → List α
  | [] => []
  | c :: done => if c = ret then done.reverse else (c :: done).reverse

/-- The lines of a sequence: each ends at a feed mark, and what follows the last feed mark
is one more line unless it is empty. -/
def linesFrom (feed ret : α) (done : List α) : List α → List (List α)
  | [] => if done.isEmpty then [] else [done.reverse]
  | c :: cs =>
    if c = feed then closeLine ret done :: linesFrom feed ret [] cs
    else linesFrom feed ret (c :: done) cs

def lines (feed ret : α) (cs : List α) : List (List α) := linesFrom feed ret [] cs

def textLines (s : String) : List (List Char) := lines '\n' '\r' s.toList

def splitFrom (sep : α) (done : List α) : List α → List (List α)
  | [] => [done.reverse]
  | c :: cs => if c = sep then done.reverse :: splitFrom sep [] cs else splitFrom sep (c :: done) cs

def split (sep : α) (cs : List α) : List (List α) := splitFrom sep [] cs

theorem linesFrom_append_feed (feed ret : α) (done line rest : List α) (h : feed ∉ line) :
    linesFrom feed ret done (line ++ feed :: rest) =
      closeLine ret (line.reverse ++ done) :: linesFrom feed ret [] rest := by
  induction line generalizing done with
  | nil => simp [linesFrom]
  | cons c line ih =>
      have hc : c ≠ feed := fun e => h (e ▸ List.mem_cons_self)
      have hl : feed ∉ line := fun m => h (List.mem_cons_of_mem c m)
      simp [linesFrom, hc, ih (c :: done) hl]

end CausalWork.Text
