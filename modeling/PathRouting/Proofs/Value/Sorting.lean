import PathRouting.Proofs.Value.TextKeys
import PathRouting.Regex.Error
import PathRouting.Value.Order

/-!
# Sorting by textual keys

Where all keys are texts, and no text is there twice, sorting gives the entries in the order of
their keys. There is only one such order, so it does not matter in which order they came.
-/
namespace PathRouting.Value

open Mapping Regex

variable {α : Type}

def Increasing (entries : List (String × α)) : Prop := entries.Pairwise fun x y => x.1 < y.1

theorem Increasing.split {sorted : List (String × α)} (h : Increasing sorted) {i : Nat}
    (hi : i < sorted.length) : (∀ e ∈ sorted.take i, e.1 < sorted[i].1) ∧
      ∀ e ∈ sorted.drop (i + 1), sorted[i].1 < e.1 := by
  have hs : sorted = sorted.take i ++ sorted[i] :: sorted.drop (i + 1) := by
    rw [← List.drop_eq_getElem_cons hi, List.take_append_drop]
  rw [Increasing, hs, List.pairwise_append, List.pairwise_cons] at h
  exact ⟨fun e he => h.2.2 e he sorted[i] (List.mem_cons_self ..), h.2.1.1⟩

/-! ## Inserting -/

/-- The place for a name stands behind all smaller ones and before all greater ones. -/
theorem insertionPoint_texts {sorted : List (String × α)} {name : String}
    (hs : Increasing sorted) (hn : name ∉ sorted.map Prod.fst) {fuel low high : Nat}
    (hh : high ≤ sorted.length) (hf : high - low < fuel) (hle : low ≤ high)
    (hlow : ∀ e ∈ sorted.take low, e.1 < name) (hhigh : ∀ e ∈ sorted.drop high, name < e.1) :
    ∃ place, insertionPoint fuel (.str name) (ofTexts id sorted) low high = .ok place ∧
      (∀ e ∈ sorted.take place, e.1 < name) ∧ ∀ e ∈ sorted.drop place, name < e.1 := by
  -- the bounds close in: what stands before `low` is smaller, what stands from `high` on greater
  induction fuel generalizing low high with
  | zero => omega
  | succ fuel ih =>
    rw [insertionPoint]
    by_cases hdone : high ≤ low
    · obtain rfl : low = high := by omega
      exact ⟨low, if_pos (Nat.le_refl _), hlow, hhigh⟩
    · rw [if_neg hdone]
      have hm : low + (high - low) / 2 < sorted.length := by omega
      generalize hmid : low + (high - low) / 2 = middle at hm ⊢
      have hget : (ofTexts id sorted)[middle]? =
          some (.str sorted[middle].1, sorted[middle].2) := by
        rw [ofTexts, List.getElem?_map, List.getElem?_eq_getElem hm]
        rfl
      obtain ⟨hbefore, hbehind⟩ := hs.split hm
      simp only [hget, less, bind, Except.bind]
      by_cases hlt : name < sorted[middle].1
      · rw [if_pos (decide_eq_true hlt)]
        refine ih (by omega) (by omega) (by omega) hlow fun e he => ?_
        rw [List.drop_eq_getElem_cons hm] at he
        rcases List.mem_cons.mp he with rfl | he
        · exact hlt
        · exact String.lt_trans hlt (hbehind e he)
      · rw [if_neg (by simpa using hlt)]
        have hne : sorted[middle].1 ≠ name := fun he =>
          hn (he ▸ List.mem_map_of_mem (List.getElem_mem hm))
        have hgt : sorted[middle].1 < name := Std.lt_of_le_of_ne (String.not_lt.mp hlt) hne
        refine ih hh (by omega) (by omega) (fun e he => ?_) hhigh
        rw [List.take_add_one, List.getElem?_eq_getElem hm] at he
        rcases List.mem_append.mp he with he | he
        · exact String.lt_trans (hbefore e he) hgt
        · obtain rfl := List.mem_singleton.mp he
          exact hgt

theorem insertAll_texts {sorted more : List (String × α)} (hs : Increasing sorted)
    (hn : ((sorted ++ more).map Prod.fst).Nodup) : ∃ result,
      insertAll (ofTexts id sorted) (ofTexts id more) = .ok (ofTexts id result) ∧
        result.Perm (sorted ++ more) ∧ Increasing result := by
  induction more generalizing sorted with
  | nil => exact ⟨sorted, rfl, by simp, hs⟩
  | cons e more ih =>
    have hperm : ∀ i, (sorted.take i ++ e :: sorted.drop i).Perm (sorted ++ [e]) := by
      intro i
      have hm : (sorted.take i ++ e :: sorted.drop i).Perm
          (e :: (sorted.take i ++ sorted.drop i)) := List.perm_middle
      rw [List.take_append_drop] at hm
      exact hm.trans (List.perm_append_singleton e sorted).symm
    have hnew : e.1 ∉ sorted.map Prod.fst := by
      rw [List.map_append, List.nodup_append] at hn
      exact fun hm => hn.2.2 e.1 hm e.1 (by simp) rfl
    obtain ⟨place, hplace, hbefore, hbehind⟩ : ∃ place,
        insertionPoint (sorted.length + 1) (.str e.1) (ofTexts id sorted) 0 sorted.length =
          .ok place ∧ (∀ x ∈ sorted.take place, x.1 < e.1) ∧ ∀ x ∈ sorted.drop place, e.1 < x.1 :=
      insertionPoint_texts hs hnew (Nat.le_refl _) (by omega) (Nat.zero_le _) (by simp) (by simp)
    have hincreasing : Increasing (sorted.take place ++ e :: sorted.drop place) := by
      have htake : Increasing (sorted.take place) := hs.sublist (List.take_sublist ..)
      have hdrop : Increasing (sorted.drop place) := hs.sublist (List.drop_sublist ..)
      refine List.pairwise_append.mpr ⟨htake, List.pairwise_cons.mpr ⟨hbehind, hdrop⟩, ?_⟩
      intro x hx y hy
      rcases List.mem_cons.mp hy with rfl | hy
      · exact hbefore x hx
      · exact String.lt_trans (hbefore x hx) (hbehind y hy)
    have hall : ((sorted.take place ++ e :: sorted.drop place) ++ more).Perm
        (sorted ++ e :: more) := by
      have h := (hperm place).append_right more
      simpa using h
    obtain ⟨result, hresult, hrperm, hrs⟩ := ih hincreasing
      ((hall.map Prod.fst).nodup_iff.mpr hn)
    refine ⟨result, ?_, hrperm.trans hall, hrs⟩
    have hlength : (ofTexts id sorted).length = sorted.length := List.length_map _
    have hinserted : (ofTexts id sorted).take place ++ (.str e.1, e.2) ::
        (ofTexts id sorted).drop place =
          ofTexts id (sorted.take place ++ e :: sorted.drop place) := by
      simp [ofTexts, List.map_take, List.map_drop]
    have hmore : ofTexts id (e :: more) = (.str e.1, e.2) :: ofTexts id more := rfl
    rw [hmore, insertAll, hlength, hplace]
    simp only [bind, Except.bind]
    rw [hinserted]
    exact hresult

/-! ## The run at the head -/

/-- One entry comes before another one in a run that falls, or in one that does not. -/
def InRun (falling : Bool) (x y : String × α) : Prop :=
  if falling then y.1 < x.1 else x.1 < y.1

theorem InRun.trans {falling : Bool} {x y z : String × α} (h : InRun falling x y)
    (h' : InRun falling y z) : InRun falling x z := by
  cases falling with
  | true => exact String.lt_trans h' h
  | false => exact String.lt_trans h h'

theorem inRun_of_less {falling : Bool} {x y : String × α} (hne : x.1 ≠ y.1)
    (h : decide (y.1 < x.1) = falling) : InRun falling x y := by
  cases falling with
  | true =>
    have hlt : y.1 < x.1 := of_decide_eq_true h
    exact hlt
  | false =>
    have hnot : ¬y.1 < x.1 := of_decide_eq_false h
    exact Std.lt_of_le_of_ne (String.not_lt.mp hnot) hne

theorem pairwise_inRun_cons {falling : Bool} {x y : String × α} {rest : List (String × α)}
    (hxy : InRun falling x y) (h : (y :: rest).Pairwise (InRun falling)) :
    (x :: y :: rest).Pairwise (InRun falling) := by
  refine List.pairwise_cons.mpr ⟨fun z hz => ?_, h⟩
  rcases List.mem_cons.mp hz with rfl | hz
  · exact hxy
  · exact hxy.trans ((List.pairwise_cons.mp h).1 z hz)

theorem exists_increasing {falling : Bool} {entries : List (String × α)}
    (h : entries.Pairwise (InRun falling)) : ∃ run : List (String × α),
      (if falling then (ofTexts id entries).reverse else ofTexts id entries) = ofTexts id run ∧
        run.Perm entries ∧ Increasing run := by
  cases falling with
  | true =>
    exact ⟨entries.reverse, by simp [ofTexts], List.reverse_perm _, List.pairwise_reverse.mpr h⟩
  | false => exact ⟨entries, rfl, .refl _, h⟩

theorem runLength_texts (falling : Bool) {x : String × α} {rest : List (String × α)}
    (hn : ((x :: rest).map Prod.fst).Nodup) : ∃ more,
      runLength falling (.str x.1, x.2) (ofTexts id rest) = .ok more ∧
        (x :: rest.take more).Pairwise (InRun falling) := by
  induction rest generalizing x with
  | nil => exact ⟨0, rfl, List.pairwise_singleton ..⟩
  | cons y rest ih =>
    have hne : x.1 ≠ y.1 := fun he => (List.nodup_cons.mp hn).1 (by simp [he])
    have hy : ofTexts id (y :: rest) = (.str y.1, y.2) :: ofTexts id rest := rfl
    by_cases hf : decide (y.1 < x.1) = falling
    · obtain ⟨more, hmore, hrun⟩ := ih (List.nodup_cons.mp hn).2
      refine ⟨more + 1, ?_, ?_⟩
      · rw [hy, runLength]
        simp only [less, bind, Except.bind]
        rw [if_pos (beq_iff_eq.mpr hf), hmore]
        rfl
      · rw [List.take_succ_cons]
        exact pairwise_inRun_cons (inRun_of_less hne hf) hrun
    · refine ⟨0, ?_, List.pairwise_singleton ..⟩
      rw [hy, runLength]
      simp only [less, bind, Except.bind]
      rw [if_neg (mt beq_iff_eq.mp hf)]
      rfl

/-! ## Sorting -/

/-- Sorting gives the entries in the order of their names. -/
theorem sortEntries_texts {entries : List (String × α)}
    (hn : (entries.map Prod.fst).Nodup) : ∃ sorted,
      sortEntries (ofTexts id entries) = .ok (ofTexts id sorted) ∧
        sorted.Perm entries ∧ Increasing sorted := by
  match entries with
  | [] => exact ⟨[], rfl, .nil, .nil⟩
  | [e] => exact ⟨[e], rfl, .refl _, List.pairwise_singleton ..⟩
  | x :: y :: rest =>
    have hne : x.1 ≠ y.1 := fun he => (List.nodup_cons.mp hn).1 (by simp [he])
    obtain ⟨more, hmore, hrun⟩ := runLength_texts (decide (y.1 < x.1)) (List.nodup_cons.mp hn).2
    have hall : (x :: y :: rest.take more).Pairwise (InRun (decide (y.1 < x.1))) :=
      pairwise_inRun_cons (inRun_of_less hne rfl) hrun
    obtain ⟨run, hrunTexts, hperm, hincreasing⟩ := exists_increasing hall
    have hwhole : (run ++ rest.drop more).Perm (x :: y :: rest) := by
      have h := hperm.append_right (rest.drop more)
      simpa using h
    obtain ⟨sorted, hsorted, hsperm, hs⟩ := insertAll_texts hincreasing
      ((hwhole.map Prod.fst).nodup_iff.mpr hn)
    refine ⟨sorted, ?_, hsperm.trans hwhole, hs⟩
    have hxy : ofTexts id (x :: y :: rest) =
        (.str x.1, x.2) :: (.str y.1, y.2) :: ofTexts id rest := rfl
    have htake : (Value.str x.1, x.2) :: (Value.str y.1, y.2) :: (ofTexts id rest).take more =
        ofTexts id (x :: y :: rest.take more) := by
      simp [ofTexts, List.map_take]
    have hdrop : (ofTexts id rest).drop more = ofTexts id (rest.drop more) := by
      simp [ofTexts, List.map_drop]
    rw [hxy, sortEntries]
    simp only [less, bind, Except.bind, hmore]
    rw [htake, hrunTexts, hdrop]
    exact hsorted

theorem Increasing.unique {xs ys : List (String × α)} (hx : Increasing xs) (hy : Increasing ys)
    (h : xs.Perm ys) : xs = ys := by
  refine h.eq_of_pairwise (fun a b _ _ hab hba => ?_) hx hy
  exact absurd hba (String.lt_asymm hab)

end PathRouting.Value
