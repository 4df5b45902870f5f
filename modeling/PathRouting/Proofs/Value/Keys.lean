import PathRouting.Value.Mapping

/-!
# Keys that are the same

A text is the same key as itself alone. Numbers of any type are the same key if they are worth
the same, so keys that are the same as a third one are the same as each other.
-/
namespace PathRouting

namespace Binary64

/-- What a number is worth: an infinity by whether it is negative, or an exact quotient. -/
def worth? : Binary64 → Option (Bool ⊕ Rat)
  | .nan => none
  | .infinity negative => some (.inl negative)
  | x => x.toRatio?.map fun ratio => .inr (mkRat ratio.1 ratio.2)

theorem toRatio?_finite (negative : Bool) (m : Nat) (e : Int) :
    ∃ num den, (finite negative m e).toRatio? = some (num, den) ∧ den ≠ 0 := by
  cases e with
  | ofNat e => exact ⟨_, 1, rfl, by decide⟩
  | negSucc e => exact ⟨_, _, rfl, Nat.ne_of_gt (Nat.two_pow_pos (e + 1))⟩

theorem compareRatio_eq_iff (x : Binary64) (num : Int) {den : Nat} (hd : den ≠ 0) :
    x.compareRatio num den = some .eq ↔ x.worth? = some (.inr (mkRat num den)) := by
  cases x with
  | nan => simp [compareRatio, worth?]
  | infinity negative => cases negative <;> simp [compareRatio, worth?]
  | finite negative m e =>
    obtain ⟨num', den', hr, hd'⟩ := toRatio?_finite negative m e
    simp only [compareRatio, worth?, hr, Option.map_some, Option.some.injEq, Sum.inr.injEq,
      Std.compare_eq_iff_eq]
    exact (Rat.mkRat_eq_iff hd' hd).symm

theorem order?_eq_iff (x y : Binary64) :
    x.order? y = some .eq ↔ ∃ w, x.worth? = some w ∧ y.worth? = some w := by
  cases y with
  | nan => simp [order?, worth?]
  | infinity negative =>
    cases x with
    | nan => simp [order?, worth?]
    | infinity negative' => cases negative <;> cases negative' <;> simp [order?, worth?]
    | finite negative' m e =>
      obtain ⟨num, den, hr, -⟩ := toRatio?_finite negative' m e
      cases negative <;> simp [order?, worth?, hr]
  | finite negative m e =>
    obtain ⟨num, den, hr, hd⟩ := toRatio?_finite negative m e
    have hy : (finite negative m e).worth? = some (.inr (mkRat num den)) := by
      simp only [worth?, hr, Option.map_some]
    simp only [order?, hr, hy, compareRatio_eq_iff x num hd]
    constructor
    · intro h
      exact ⟨_, h, rfl⟩
    · rintro ⟨w, hx, hw⟩
      rw [hx, hw]

end Binary64

namespace Value

def worth? : Value → Option (Bool ⊕ Rat)
  | .float x => x.worth?
  | v => v.toInt?.map fun i => .inr (mkRat i 1)

theorem compareRatio_one_eq_iff (a : Binary64) (v : Value) :
    (v.toInt?.bind fun j => a.compareRatio j 1) = some .eq ↔
      ∃ w, a.worth? = some w ∧ (v.toInt?.map fun i => .inr (mkRat i 1)) = some w := by
  cases v.toInt? with
  | none => simp
  | some j =>
    rw [Option.bind_some, Binary64.compareRatio_eq_iff a j (by decide)]
    constructor
    · intro h
      exact ⟨_, h, rfl⟩
    · rintro ⟨w, ha, hw⟩
      rw [ha, ← hw]
      rfl

theorem compareNumbers_eq_iff (x y : Value) :
    compareNumbers x y = some .eq ↔ ∃ w, x.worth? = some w ∧ y.worth? = some w := by
  unfold compareNumbers
  split
  · exact Binary64.order?_eq_iff _ _
  · rename_i a y hy
    rw [compareRatio_one_eq_iff, worth?, worth?]
    exact hy
  · rename_i b hx
    have hswap : (x.toInt?.bind fun i => (b.compareRatio i 1).map Ordering.swap) = some .eq ↔
        (x.toInt?.bind fun i => b.compareRatio i 1) = some .eq := by
      simp [Option.bind_eq_some_iff, Ordering.swap_eq_eq]
    rw [hswap, compareRatio_one_eq_iff, worth?, worth?]
    · exact exists_congr fun w => and_comm
    · exact hx
  · rename_i hx hy _
    rw [worth?, worth?]
    · cases x.toInt? with
      | none => simp
      | some i =>
        cases y.toInt? with
        | none => simp
        | some j =>
          have hij : mkRat j 1 = mkRat i 1 ↔ i = j := by
            rw [Rat.mkRat_eq_iff (by decide) (by decide)]
            omega
          simp [hij]
    · exact hy
    · exact hx

theorem sameKey_number {x : Value} (h : x.isNumber = true) (y : Value) :
    x.sameKey y = true ↔ ∃ w, x.worth? = some w ∧ y.worth? = some w := by
  rw [← compareNumbers_eq_iff]
  cases x with
  | bool b => simp [sameKey]
  | int i => simp [sameKey]
  | float a => simp [sameKey]
  | _ => cases h

theorem isNumber_of_worth {x : Value} {w : Bool ⊕ Rat} (h : x.worth? = some w) :
    x.isNumber = true := by
  cases x with
  | bool | int | float => rfl
  | _ => cases h

/-! ## Texts -/

theorem sameKey_text_iff {name : String} {key : Value} :
    (Value.str name).sameKey key = true ↔ key = .str name := by
  cases key with
  | str s => rw [sameKey_str, beq_iff_eq, str.injEq, Eq.comm]
  | _ => simp [sameKey]

theorem sameKey_iff_text {name : String} {key : Value} :
    key.sameKey (.str name) = true ↔ key = .str name := by
  by_cases hn : key.isNumber = true
  · rw [sameKey_number hn]
    constructor
    · rintro ⟨w, -, hw⟩
      cases hw
    · rintro rfl
      cases hn
  · cases key with
    | bool | int | float => exact absurd rfl hn
    | _ => simp [sameKey]

/-! ## Keys that are the same as a third one -/

theorem sameKey_null_iff {y : Value} : Value.null.sameKey y = true ↔ y = .null := by
  cases y <;> simp [sameKey]

theorem sameKey_tuple_iff {xs : List Value} {y : Value} :
    (Value.tuple xs).sameKey y = true ↔ ∃ ys, y = .tuple ys ∧ sameKeys xs ys = true := by
  cases y <;> simp [sameKey]

theorem sameKey_frozenSet_iff {xs : List Value} {y : Value} :
    (Value.frozenSet xs).sameKey y = true ↔
      ∃ ys, y = .frozenSet ys ∧ xs.length = ys.length ∧ allAmong xs ys = true := by
  cases y <;> simp [sameKey]

theorem allAmong_iff {xs ys : List Value} :
    allAmong xs ys = true ↔ ∀ x ∈ xs, ∃ y ∈ ys, x.sameKey y = true := by
  induction xs with
  | nil => simp [allAmong]
  | cons x xs ih => simp [allAmong, ih]

theorem sameKey_trans_number {x y z : Value} (hx : x.isNumber = true)
    (hxy : x.sameKey y = true) (hyz : y.sameKey z = true) : x.sameKey z = true := by
  obtain ⟨w, hw, hy⟩ := (sameKey_number hx y).mp hxy
  obtain ⟨w', hy', hz⟩ := (sameKey_number (isNumber_of_worth hy) z).mp hyz
  obtain rfl := Option.some.inj (hy.symm.trans hy')
  exact (sameKey_number hx z).mpr ⟨w, hw, hz⟩

mutual

theorem sameKey_trans : ∀ (x : Value) {y z : Value}, x.sameKey y = true →
    y.sameKey z = true → x.sameKey z = true
  | .null, _, _, hxy, hyz => sameKey_null_iff.mp hxy ▸ hyz
  | .bool _, _, _, hxy, hyz => sameKey_trans_number rfl hxy hyz
  | .int _, _, _, hxy, hyz => sameKey_trans_number rfl hxy hyz
  | .float _, _, _, hxy, hyz => sameKey_trans_number rfl hxy hyz
  | .str _, _, _, hxy, hyz => sameKey_text_iff.mp hxy ▸ hyz
  | .tuple xs, _, _, hxy, hyz => by
    obtain ⟨ys, rfl, hys⟩ := sameKey_tuple_iff.mp hxy
    obtain ⟨zs, rfl, hzs⟩ := sameKey_tuple_iff.mp hyz
    exact sameKey_tuple_iff.mpr ⟨zs, rfl, sameKeys_trans xs hys hzs⟩
  | .frozenSet xs, _, _, hxy, hyz => by
    obtain ⟨ys, rfl, hlen, hys⟩ := sameKey_frozenSet_iff.mp hxy
    obtain ⟨zs, rfl, hlen', hzs⟩ := sameKey_frozenSet_iff.mp hyz
    exact sameKey_frozenSet_iff.mpr ⟨zs, rfl, hlen.trans hlen', allAmong_trans xs hys hzs⟩
  | .list _, _, _, hxy, _ => by simp [sameKey] at hxy
  | .set _, _, _, hxy, _ => by simp [sameKey] at hxy
  | .mapping _, _, _, hxy, _ => by simp [sameKey] at hxy
  | .record _, _, _, hxy, _ => by simp [sameKey] at hxy

theorem sameKeys_trans : ∀ (xs : List Value) {ys zs : List Value}, sameKeys xs ys = true →
    sameKeys ys zs = true → sameKeys xs zs = true
  | [], [], _, _, hyz => hyz
  | [], _ :: _, _, hxy, _ => by simp [sameKeys] at hxy
  | _ :: _, [], _, hxy, _ => by simp [sameKeys] at hxy
  | _ :: _, _ :: _, [], _, hyz => by simp [sameKeys] at hyz
  | x :: xs, y :: ys, z :: zs, hxy, hyz => by
    simp only [sameKeys, Bool.and_eq_true] at hxy hyz ⊢
    exact ⟨sameKey_trans x hxy.1 hyz.1, sameKeys_trans xs hxy.2 hyz.2⟩

theorem allAmong_trans : ∀ (xs : List Value) {ys zs : List Value}, allAmong xs ys = true →
    allAmong ys zs = true → allAmong xs zs = true
  | [], _, _, _, _ => rfl
  | x :: xs, ys, zs, hxy, hyz => by
    rw [allAmong, Bool.and_eq_true, List.any_eq_true] at hxy ⊢
    obtain ⟨⟨y, hy, hsame⟩, hrest⟩ := hxy
    obtain ⟨z, hz, hsame'⟩ := allAmong_iff.mp hyz y hy
    exact ⟨⟨z, hz, sameKey_trans x hsame hsame'⟩, allAmong_trans xs hrest hyz⟩

end

end Value

end PathRouting
