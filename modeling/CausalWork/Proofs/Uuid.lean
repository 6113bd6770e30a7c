import CausalWork.Uuid

namespace CausalWork.Uuid

open Text

theorem hexDigit_ne_hyphen (d : Fin 16) : hexDigit d ≠ '-' := by
  revert d
  decide

theorem groups_append (cs : List Char) :
    cs.take 8 ++ ((cs.drop 8).take 4 ++ ((cs.drop 12).take 4 ++ ((cs.drop 16).take 4 ++
      cs.drop 20))) = cs := by
  have hd (n : Nat) : (cs.drop n).take 4 ++ cs.drop (n + 4) = cs.drop n := by
    rw [← List.drop_drop, List.take_append_drop]
  rw [hd 16, hd 12, hd 8, List.take_append_drop]

theorem filter_hyphened {cs : List Char} (h : '-' ∉ cs) :
    (hyphened cs).filter (fun c => c ≠ '-') = cs := by
  have keep {ds : List Char} (hs : ds ⊆ cs) : ds.filter (fun c => c ≠ '-') = ds := by
    refine List.filter_eq_self.2 fun c hc => ?_
    simpa using fun he : c = '-' => h (he ▸ hs hc)
  have hd (n : Nat) : (cs.drop n).filter (fun c => c ≠ '-') = cs.drop n :=
    keep (List.drop_subset n cs)
  have ht (n : Nat) : ((cs.drop n).take 4).filter (fun c => c ≠ '-') = (cs.drop n).take 4 :=
    keep (List.Subset.trans (List.take_subset 4 _) (List.drop_subset n cs))
  have hy (ds : List Char) :
      ('-' :: ds).filter (fun c => c ≠ '-') = ds.filter (fun c => c ≠ '-') := rfl
  simp only [hyphened, List.filter_append, hy, keep (List.take_subset 8 cs), ht, hd,
    List.append_assoc]
  exact groups_append cs

theorem mapM_hexValue? (ds : List (Fin 16)) : (ds.map hexDigit).mapM hexValue? = some ds := by
  induction ds with
  | nil => rfl
  | cons d ds ih => simp [hexValue?_hexDigit, ih]

theorem ofText?_toText (u : Uuid) : ofText? u.toText = some u := by
  have hn : '-' ∉ u.digits.map hexDigit := by simp [hexDigit_ne_hyphen]
  have hl : (hyphened (u.digits.map hexDigit)).length = 36 := by simp [hyphened, u.length_eq]
  have hp : ofPlain? (u.digits.map hexDigit) = some u := by
    rw [ofPlain?, mapM_hexValue?]
    simp [ofDigits?, u.length_eq]
  rw [ofText?, toText, String.toList_ofList, if_neg (by omega), if_pos hl]
  simp only [ofHyphened?, filter_hyphened hn, if_true, hp]

end CausalWork.Uuid
