/-!
# Ranking

Candidates are ranked by a list of numbers each, compared from the front: the smaller list comes
first, and candidates with the same list keep their order. Lists without repeats are beside it,
because the merge of rankings drops what came before.
-/

namespace CardFilter

/-- The first list is not greater than the second, compared number by number from the front. -/
def lexLe : List Nat → List Nat → Bool
  | [], _ => true
  | _ :: _, [] => false
  | a :: as, b :: bs => a < b || (a == b && lexLe as bs)

/-- **Ranks by the key**, smallest first; candidates with the same key keep their order. -/
def rankBy (key : α → List Nat) (candidates : List α) : List α :=
  candidates.mergeSort fun a b => lexLe (key a) (key b)

/-- The code points of a text, by which texts are put in alphabetical order. -/
def codePoints (s : String) : List Nat :=
  s.toList.map Char.toNat

/-- The entries whose key did not come before. -/
def distinctBy [DecidableEq β] (key : α → β) : List α → List α
  | [] => []
  | a :: rest => a :: (distinctBy key rest).filter fun b => key b ≠ key a

/-- The entries that did not come before. -/
def distinct [DecidableEq α] (entries : List α) : List α :=
  distinctBy id entries

/-! ### Laws of ranking -/

theorem lexLe_total (as bs : List Nat) : lexLe as bs || lexLe bs as := by
  induction as generalizing bs with
  | nil => simp [lexLe]
  | cons a as ih =>
    cases bs with
    | nil => simp [lexLe]
    | cons b bs =>
      rcases Nat.lt_trichotomy a b with h | rfl | h
      · simp [lexLe, h]
      · simpa [lexLe] using ih bs
      · simp [lexLe, h]

theorem lexLe_trans (as bs cs : List Nat) (hab : lexLe as bs) (hbc : lexLe bs cs) :
    lexLe as cs := by
  induction as generalizing bs cs with
  | nil => rfl
  | cons a as ih =>
    cases bs with
    | nil => simp [lexLe] at hab
    | cons b bs =>
      cases cs with
      | nil => simp [lexLe] at hbc
      | cons c cs =>
        simp only [lexLe, Bool.or_eq_true, decide_eq_true_eq, Bool.and_eq_true,
          beq_iff_eq] at hab hbc ⊢
        rcases hab with hab | ⟨rfl, hab⟩
        · rcases hbc with hbc | ⟨rfl, _⟩
          · exact .inl (Nat.lt_trans hab hbc)
          · exact .inl hab
        · rcases hbc with hbc | ⟨rfl, hbc⟩
          · exact .inl hbc
          · exact .inr ⟨rfl, ih bs cs hab hbc⟩

/-- Ranking only reorders. -/
theorem rankBy_perm (key : α → List Nat) (candidates : List α) :
    (rankBy key candidates).Perm candidates :=
  List.mergeSort_perm _ _

/-- The best candidates are among the candidates. -/
theorem mem_of_mem_take_rankBy {key : α → List Nat} {candidates : List α} {limit : Nat} {a : α}
    (h : a ∈ (rankBy key candidates).take limit) : a ∈ candidates :=
  (rankBy_perm key candidates).mem_iff.mp (List.mem_of_mem_take h)

/-- Ranking puts the smaller keys first. -/
theorem pairwise_rankBy (key : α → List Nat) (candidates : List α) :
    (rankBy key candidates).Pairwise fun a b => lexLe (key a) (key b) = true :=
  List.pairwise_mergeSort (fun a b c => lexLe_trans (key a) (key b) (key c))
    (fun a b => lexLe_total (key a) (key b)) candidates

/-! ### Laws of lists without repeats -/

section Distinct

variable {α β : Type} [DecidableEq β] (key : α → β)

/-- Entries of a longer list are kept if they are kept in its second part, and no entry of the
first part has their key. -/
theorem distinctBy_append (as bs : List α) :
    distinctBy key (as ++ bs) = distinctBy key as ++
      (distinctBy key bs).filter fun b => key b ∉ as.map key := by
  induction as with
  | nil => simp [distinctBy, List.filter_eq_self.mpr]
  | cons a as ih =>
    have hfilter : (distinctBy key bs).filter (fun b => key b ≠ key a && key b ∉ as.map key) =
        (distinctBy key bs).filter fun b => key b ∉ (a :: as).map key :=
      List.filter_congr fun b _ => by simp
    simp only [List.cons_append, distinctBy, ih, List.filter_append, List.filter_filter, hfilter]

theorem pairwise_distinctBy (as : List α) :
    (distinctBy key as).Pairwise fun a b => key b ≠ key a := by
  induction as with
  | nil => exact .nil
  | cons a as ih =>
    refine .cons (fun b hb => ?_) (ih.filter _)
    simpa using (List.mem_filter.mp hb).2

theorem distinctBy_of_pairwise {as : List α} (h : as.Pairwise fun a b => key b ≠ key a) :
    distinctBy key as = as := by
  induction h with
  | nil => rfl
  | @cons a as ha _ ih =>
    have hkept : as.filter (fun b => key b ≠ key a) = as :=
      List.filter_eq_self.mpr fun b hb => by simpa using ha b hb
    rw [distinctBy, ih, hkept]

theorem distinctBy_distinctBy (as : List α) :
    distinctBy key (distinctBy key as) = distinctBy key as :=
  distinctBy_of_pairwise key (pairwise_distinctBy key as)

theorem distinctBy_sublist (as : List α) : (distinctBy key as).Sublist as := by
  induction as with
  | nil => exact .refl _
  | cons a as ih => exact (List.filter_sublist.trans ih).cons_cons a

theorem nodup_map_distinctBy (as : List α) : ((distinctBy key as).map key).Nodup :=
  List.pairwise_map.mpr ((pairwise_distinctBy key as).imp fun h => h.symm)

/-- **Of every key the first entry is kept.** -/
theorem find?_distinctBy (as : List α) (k : β) :
    (distinctBy key as).find? (fun a => key a = k) = as.find? fun a => key a = k := by
  induction as with
  | nil => rfl
  | cons a as ih =>
    by_cases ha : key a = k
    · simp [distinctBy, ha]
    · have hkept : ∀ b, (key b ≠ key a ∧ key b = k) ↔ key b = k := by
        intro b
        refine ⟨And.right, fun hb => ⟨?_, hb⟩⟩
        rw [hb]
        exact Ne.symm ha
      rw [distinctBy, List.find?_cons_of_neg (by simpa using ha),
        List.find?_cons_of_neg (by simpa using ha), List.find?_filter, ← ih]
      simp only [decide_eq_true_eq, hkept]

theorem mem_map_distinctBy {as : List α} {k : β} :
    k ∈ (distinctBy key as).map key ↔ k ∈ as.map key := by
  have hfind : ∀ bs : List α, k ∈ bs.map key ↔ (bs.find? fun b => key b = k).isSome := by
    intro bs
    simp [List.mem_map]
  rw [hfind, hfind, find?_distinctBy]

/-- What has been thinned out before can be thinned out again with more behind it. -/
theorem distinctBy_distinctBy_append (as bs : List α) :
    distinctBy key (distinctBy key as ++ bs) = distinctBy key (as ++ bs) := by
  rw [distinctBy_append, distinctBy_append, distinctBy_distinctBy]
  simp only [mem_map_distinctBy]

/-- Two keys that tell the same entries apart keep the same ones. -/
theorem distinctBy_congr {γ : Type} [DecidableEq γ] {key : α → β} {key' : α → γ} {as : List α}
    (h : ∀ a ∈ as, ∀ b ∈ as, key a = key b ↔ key' a = key' b) :
    distinctBy key as = distinctBy key' as := by
  induction as with
  | nil => rfl
  | cons a as ih =>
    have hrest : distinctBy key as = distinctBy key' as :=
      ih fun b hb c hc => h b (List.mem_cons_of_mem a hb) c (List.mem_cons_of_mem a hc)
    rw [distinctBy, distinctBy, hrest]
    refine congrArg (a :: ·) (List.filter_congr fun b hb => ?_)
    have hmem : b ∈ as := (distinctBy_sublist key' as).subset hb
    simp [h b (List.mem_cons_of_mem a hmem) a List.mem_cons_self]

end Distinct

end CardFilter
