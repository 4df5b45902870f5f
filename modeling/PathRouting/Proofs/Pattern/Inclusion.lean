import PathRouting.Proofs.Pattern.Eviction

/-!
# Caches of different sizes

Two caches whose entries do not expire go through the same calls. The larger one holds all keys
of the smaller one, in the same order. What carries this is that the larger cache is never ahead
by more than the difference of the sizes: as long as the smaller one has room, so has the larger.
-/
namespace PathRouting.Pattern

open Cache

namespace CacheSession

variable {s t : CacheSession} {n m : Nat} {key : String} {call : CacheCall} {r : Request}

/-! ## When a key is used -/

theorem hit?_eq_some_iff {c : Cache} (hu : c.lifetime = .unlimited) :
    c.hit? r = some key ↔ r.fingerprint = .ok key ∧ key ∈ c.keys := by
  cases hk : r.fingerprint with
  | error m => simp [hit?, get_error hk]
  | ok own =>
    rcases hl : c.lookup own with ⟨found, d⟩
    rw [hit?_lookup hk hl]
    rcases lookup_unlimited hu hl with ⟨rfl, hm, -⟩ | ⟨e, he, rfl, rfl, -⟩
    · constructor
      · intro h
        cases h
      · rintro ⟨h, hkey⟩
        obtain rfl := Except.ok.inj h
        exact absurd hkey hm
    · constructor
      · intro h
        obtain rfl := Option.some.inj h
        exact ⟨rfl, mem_keys_iff.mpr ⟨e, he, rfl⟩⟩
      · rintro ⟨h, -⟩
        obtain rfl := Except.ok.inj h
        rfl

/-- Compiling uses the key of the request if it is there, and else if something can be stored. -/
theorem used?_compile_iff [CharacterNames] (hu : s.cache.lifetime = .unlimited) :
    s.used? (.compile r) = some key ↔ r.fingerprint = .ok key ∧
      (key ∈ s.cache.keys ∨ 0 < s.cache.maxSize ∧ ∃ compiled, r.compile = .ok compiled) := by
  generalize hx : s.cache.compile r = x
  have h := hx ▸ s.cache.compile_cases r
  cases h with
  | keyless hk => simp [used?, hx, hk]
  | @found own shared d hk hl =>
    have hhit : s.cache.hit? r = some own := hit?_lookup hk hl
    have hmem : own ∈ s.cache.keys := ((hit?_eq_some_iff hu).mp hhit).2
    have hused : s.used? (.compile r) = some own := by simp [used?, hx, hhit]
    rw [hused, hk]
    constructor
    · intro he
      obtain rfl := Option.some.inj he
      exact ⟨rfl, .inl hmem⟩
    · rintro ⟨he, -⟩
      rw [Except.ok.inj he]
  | @refused own d e hk hl hr =>
    have hhit : s.cache.hit? r = none := hit?_lookup hk hl
    have hused : s.used? (.compile r) = none := by simp [used?, hx]
    rw [hused, hk, hr]
    constructor
    · intro he
      cases he
    · rintro ⟨he, hm | ⟨-, compiled, hc⟩⟩
      · rw [(hit?_eq_some_iff hu).mpr ⟨hk.trans he, hm⟩] at hhit
        cases hhit
      · cases hc
  | @stored own d compiled hk hl hr =>
    have hhit : s.cache.hit? r = none := hit?_lookup hk hl
    have hused : s.used? (.compile r) = s.cache.slot? r := by simp [used?, hx, hhit]
    rw [hused, slot?_eq_some_iff]
    refine and_congr_right fun hkey => ⟨fun hp => .inr ⟨hp, compiled, hr⟩, ?_⟩
    rintro (hm | ⟨hp, -⟩)
    · rw [(hit?_eq_some_iff hu).mpr ⟨hkey, hm⟩] at hhit
      cases hhit
    · exact hp

theorem not_invalidates_of_used [CharacterNames] (h : s.used? call = some key) (k : String) :
    call.invalidates k = false := by
  cases call with
  | get | put | compile => rfl
  | _ => cases h

/-! ## Two runs -/

/-- What ties the runs of a smaller and of a larger cache together. -/
structure Includes (n m : Nat) (s t : CacheSession) : Prop where
  small : Bounded n s
  large : Bounded m t
  /-- The same number of blocks is open. -/
  depth : s.saved.length = t.saved.length
  keys : s.cache.keys.Sublist t.cache.keys
  /-- The larger cache is not ahead by more than the sizes differ. -/
  gap : t.cache.keys.length + n ≤ s.cache.keys.length + m

theorem Includes.start (h : n ≤ m) (counting counting' : Bool) :
    Includes n m (start (Cache.empty n .unlimited counting))
      (start (Cache.empty m .unlimited counting')) where
  small := .start n counting
  large := .start m counting'
  depth := rfl
  keys := .slnil
  gap := by simpa [CacheSession.start, Cache.empty, Cache.keys] using h

theorem Includes.stores_iff (h : Includes n m s t) (hn : 0 < n) (hm : 0 < m) :
    0 < s.cache.maxSize ↔ 0 < t.cache.maxSize := by
  have hd := h.depth
  rcases h.small.sized.maxSize_eq with ⟨hs, hsize⟩ | ⟨hs, hsize⟩ <;>
    rcases h.large.sized.maxSize_eq with ⟨ht, hsize'⟩ | ⟨ht, hsize'⟩
  · omega
  · rw [hs] at hd
    exact absurd (List.length_eq_zero_iff.mp hd.symm) ht
  · rw [ht] at hd
    exact absurd (List.length_eq_zero_iff.mp hd) hs
  · omega

/-- A call that uses a key of the smaller cache uses the same key of the larger one. -/
theorem Includes.used [CharacterNames] (h : Includes n m s t) (hn : 0 < n) (hm : 0 < m)
    (hu : s.used? call = some key) : t.used? call = some key := by
  have hstores := (h.stores_iff hn hm).mp
  cases call with
  | get r =>
    obtain ⟨hk, hmem⟩ := (hit?_eq_some_iff h.small.lifetime).mp hu
    exact (hit?_eq_some_iff h.large.lifetime).mpr ⟨hk, h.keys.subset hmem⟩
  | put r shared =>
    obtain ⟨hk, hp⟩ := slot?_eq_some_iff.mp hu
    exact slot?_eq_some_iff.mpr ⟨hk, hstores hp⟩
  | compile r =>
    obtain ⟨hk, hmem | ⟨hp, hc⟩⟩ := (used?_compile_iff h.small.lifetime).mp hu
    · exact (used?_compile_iff h.large.lifetime).mpr ⟨hk, .inl (h.keys.subset hmem)⟩
    · exact (used?_compile_iff h.large.lifetime).mpr ⟨hk, .inr ⟨hstores hp, hc⟩⟩
  | _ => cases hu

/-- A key that is used in the larger cache alone is there, and not in the smaller cache. -/
theorem Includes.used_apart [CharacterNames] (h : Includes n m s t) (hn : 0 < n) (hm : 0 < m)
    (hs : s.used? call = none) (ht : t.used? call = some key) :
    key ∉ s.cache.keys ∧ key ∈ t.cache.keys := by
  have hstores := (h.stores_iff hn hm).mpr
  have hnot : ∀ k, s.used? call ≠ some k := by
    intro k he
    rw [hs] at he
    cases he
  cases call with
  | get r =>
    obtain ⟨hk, hmem⟩ := (hit?_eq_some_iff h.large.lifetime).mp ht
    exact ⟨fun hm => hnot key ((hit?_eq_some_iff h.small.lifetime).mpr ⟨hk, hm⟩), hmem⟩
  | put r shared =>
    obtain ⟨hk, hp⟩ := slot?_eq_some_iff.mp ht
    exact absurd (slot?_eq_some_iff.mpr ⟨hk, hstores hp⟩) (hnot key)
  | compile r =>
    obtain ⟨hk, hused⟩ := (used?_compile_iff h.large.lifetime).mp ht
    have hmissing : key ∉ s.cache.keys := fun hm =>
      hnot key ((used?_compile_iff h.small.lifetime).mpr ⟨hk, .inl hm⟩)
    rcases hused with hmem | ⟨hp, hc⟩
    · exact ⟨hmissing, hmem⟩
    · exact absurd ((used?_compile_iff h.small.lifetime).mpr ⟨hk, .inr ⟨hstores hp, hc⟩⟩)
        (hnot key)
  | _ => cases ht

theorem length_filter_gap {xs ys : List String} (h : xs.Sublist ys) (p : String → Bool) :
    (ys.filter p).length + xs.length ≤ (xs.filter p).length + ys.length := by
  induction h with
  | slnil => simp
  | cons y _ ih =>
    rw [List.filter_cons]
    split <;> simp only [List.length_cons] <;> omega
  | cons_cons x _ ih =>
    rw [List.filter_cons, List.filter_cons]
    split <;> simp only [List.length_cons] <;> omega

theorem Includes.full (h : Includes n m s t) (hp : 0 < t.cache.maxSize)
    (hfull : t.cache.maxSize ≤ t.cache.keys.length) :
    s.cache.maxSize ≤ s.cache.keys.length := by
  have hgap := h.gap
  rcases h.small.sized.maxSize_eq with ⟨-, hs⟩ | ⟨-, hs⟩ <;>
    rcases h.large.sized.maxSize_eq with ⟨-, ht⟩ | ⟨-, ht⟩ <;> omega

/-- What carries over from the keys of two caches to their keys after a call. -/
def Fits (n m : Nat) (small large : List String) : Prop :=
  small.Sublist large ∧ large.length + n ≤ small.length + m

section

variable [CharacterNames]

/-- A call that uses no key of the smaller cache uses at most one that only the larger has. -/
theorem Includes.fits_kept (h : Includes n m s t) (hn : 0 < n) (hm : 0 < m)
    (hs : s.used? call = none) {large : List String} (ht : KeyChange t call large)
    (hbound : large.length ≤ m) :
    Fits n m (s.cache.keys.filter fun k => !call.invalidates k) large := by
  have hgap := h.gap
  cases ht with
  | kept =>
    refine ⟨h.keys.filter _, ?_⟩
    have hfilter := length_filter_gap h.keys fun k => !call.invalidates k
    omega
  | @used key hused _ =>
    -- the key moves to the end of the larger cache
    obtain ⟨hnot, hmem⟩ := h.used_apart hn hm hs hused
    have hsame : (s.cache.keys.filter fun k => !call.invalidates k) = s.cache.keys := by
      simp [not_invalidates_of_used hused]
    have hmoved : (t.cache.keys.filter fun k => !(k == key)).length < t.cache.keys.length :=
      List.length_filter_lt_length_iff_exists.mpr ⟨key, hmem, by simp⟩
    rw [hsame]
    constructor
    · have hrest := h.keys.filter fun k => !(k == key)
      rw [filter_ne_of_notMem hnot] at hrest
      exact hrest.trans (List.sublist_append_left _ _)
    · rw [List.length_append, List.length_singleton]
      omega
  | replaced hused hnew =>
    obtain ⟨-, hmem⟩ := h.used_apart hn hm hs hused
    exact absurd hmem hnew

/-- A key that both caches use moves to the end of both, or comes there, and none goes. -/
theorem Includes.fits_used (h : Includes n m s t) (hused : t.used? call = some key)
    (hroom : key ∈ s.cache.keys ∨ (s.cache.keys.length : Int) < s.cache.maxSize)
    {large : List String} (ht : KeyChange t call large) :
    Fits n m ((s.cache.keys.filter fun k => !(k == key)) ++ [key]) large := by
  have hgap := h.gap
  cases ht with
  | kept hnone =>
    rw [hnone] at hused
    cases hused
  | used hkey _ =>
    obtain rfl := Option.some.inj (hused.symm.trans hkey)
    refine ⟨(h.keys.filter _).append (.refl _), ?_⟩
    have hfilter := length_filter_gap h.keys fun k => !(k == key)
    rw [List.length_append, List.length_append]
    omega
  | replaced hkey hnew hp hfull =>
    obtain rfl := Option.some.inj (hused.symm.trans hkey)
    have hsmall := h.full hp hfull
    rcases hroom with hmem | hroom
    · exact absurd (h.keys.subset hmem) hnew
    · omega

theorem Includes.fits_replaced (h : Includes n m s t) (hused : t.used? call = some key)
    (hnew : key ∉ s.cache.keys) (hp : 0 < s.cache.maxSize)
    (hfull : s.cache.maxSize ≤ s.cache.keys.length) {large : List String}
    (ht : KeyChange t call large) (hbound : large.length ≤ m) :
    Fits n m (s.cache.keys.drop 1 ++ [key]) large := by
  have hsize := h.small.size
  have hlength : s.cache.keys.length = n := by
    rcases h.small.sized.maxSize_eq with ⟨-, hs⟩ | ⟨-, hs⟩ <;> omega
  have hone : (s.cache.keys.drop 1 ++ [key]).length = n := by
    rw [List.length_append, List.length_drop, List.length_singleton]
    omega
  refine ⟨?_, by omega⟩
  cases ht with
  | kept hnone =>
    rw [hnone] at hused
    cases hused
  | used hkey _ =>
    obtain rfl := Option.some.inj (hused.symm.trans hkey)
    have hrest := h.keys.filter fun k => !(k == key)
    rw [filter_ne_of_notMem hnew] at hrest
    exact ((List.drop_sublist 1 _).trans hrest).append (.refl _)
  | replaced hkey =>
    obtain rfl := Option.some.inj (hused.symm.trans hkey)
    exact (h.keys.drop 1).append (.refl _)

/-- What a call does to the keys keeps those of the smaller cache within those of the larger. -/
theorem Includes.fits_after (h : Includes n m s t) (hn : 0 < n) (hle : n ≤ m)
    (call : CacheCall) : Fits n m (s.call call).cache.keys (t.call call).cache.keys := by
  have hm : 0 < m := by omega
  have hbound := (h.large.after call).size
  have hlarge := keyChange h.large.lifetime call
  generalize hkeys : (s.call call).cache.keys = small
  have hsmall := hkeys ▸ keyChange h.small.lifetime call
  cases hsmall with
  | kept hs => exact h.fits_kept hn hm hs hlarge hbound
  | used hs hroom => exact h.fits_used (h.used hn hm hs) hroom hlarge
  | replaced hs hnew hp hfull =>
    exact h.fits_replaced (h.used hn hm hs) hnew hp hfull hlarge hbound

theorem Includes.after (h : Includes n m s t) (hn : 0 < n) (hle : n ≤ m) (call : CacheCall) :
    Includes n m (s.call call) (t.call call) := by
  obtain ⟨hkeys, hgap⟩ := h.fits_after hn hle call
  refine ⟨h.small.after call, h.large.after call, ?_, hkeys, hgap⟩
  have hd := h.depth
  by_cases he : call = .enter
  · rw [he]
    exact congrArg (· + 1) hd
  by_cases hl : call = .leave
  · rw [hl]
    rcases s with ⟨c, _ | ⟨size, saved⟩⟩ <;> rcases t with ⟨d, _ | ⟨size', saved'⟩⟩
    · rfl
    · cases hd
    · cases hd
    · exact Nat.succ.inj hd
  · rw [(call_settings he hl).2, (call_settings he hl).2, hd]

theorem Includes.after_run (h : Includes n m s t) (hn : 0 < n) (hle : n ≤ m)
    (calls : List CacheCall) : Includes n m (s.run calls) (t.run calls) := by
  induction calls generalizing s t with
  | nil => exact h
  | cons call rest ih => exact ih (h.after hn hle call)

end

/-! ## Caches that keep nothing -/

/-- A cache that nothing was ever stored in, and that stores nothing. -/
structure Unused (s : CacheSession) : Prop where
  size : s.cache.maxSize ≤ 0
  saved : ∀ size ∈ s.saved, size ≤ 0
  empty : s.cache.entries = []

theorem Unused.after [CharacterNames] (h : Unused s) (call : CacheCall) : Unused (s.call call) := by
  have hempty : (s.call call).cache.entries = [] := by
    rw [List.eq_nil_iff_forall_not_mem]
    intro e he
    obtain ⟨old, hold, -⟩ := within_of_disabled h.size call e he
    rw [h.empty] at hold
    cases hold
  by_cases he : call = .enter
  · subst he
    refine ⟨Int.le_refl 0, ?_, hempty⟩
    intro size hs
    rcases List.mem_cons.mp hs with rfl | hs
    · exact h.size
    · exact h.saved size hs
  by_cases hl : call = .leave
  · subst hl
    rcases s with ⟨c, _ | ⟨size, saved⟩⟩
    · exact h
    · exact ⟨h.saved size (List.mem_cons_self ..),
        fun other hs => h.saved other (List.mem_cons_of_mem _ hs), hempty⟩
  · obtain ⟨hsettings, hsaved⟩ := call_settings (s := s) he hl
    have hsize : (s.call call).cache.maxSize = s.cache.maxSize := congrArg Prod.fst hsettings
    exact ⟨hsize ▸ h.size, hsaved ▸ h.saved, hempty⟩

theorem Unused.after_run [CharacterNames] (h : Unused s) (calls : List CacheCall) : Unused
    (s.run calls) :=
  run_preserves (fun _ call h => h.after call) h calls

/-! ## Whole runs -/

theorem hit?_isSome_iff {c : Cache} :
    (c.hit? r).isSome = true ↔ ∃ shared, (c.get r).1 = .ok (some shared) := by
  cases hk : r.fingerprint with
  | error m => simp [hit?, get_error hk]
  | ok key =>
    rw [hit?_ok hk, get_ok hk, Option.isSome_map, Option.isSome_iff_exists]
    simp

/-- All that a cache holds and finds, another one holds and finds as well. -/
structure Covered (s t : CacheSession) : Prop where
  /-- The keys stand in the same order. -/
  order : s.cache.keys.Sublist t.cache.keys
  found : ∀ r shared, (s.cache.get r).1 = .ok (some shared) →
    ∃ other, (t.cache.get r).1 = .ok (some other)

theorem Covered.of_order (hs : s.cache.lifetime = .unlimited) (ht : t.cache.lifetime = .unlimited)
    (h : s.cache.keys.Sublist t.cache.keys) : Covered s t := by
  refine ⟨h, fun r shared hg => ?_⟩
  obtain ⟨key, hhit⟩ := Option.isSome_iff_exists.mp (hit?_isSome_iff.mpr ⟨shared, hg⟩)
  obtain ⟨hk, hmem⟩ := (hit?_eq_some_iff hs).mp hhit
  have hother := (hit?_eq_some_iff ht).mpr ⟨hk, h.subset hmem⟩
  exact hit?_isSome_iff.mp (Option.isSome_iff_exists.mpr ⟨key, hother⟩)

/-- Whatever is done to two caches, the larger one holds what the smaller one holds. -/
theorem run_covered [CharacterNames] {n m : Int} (h : n ≤ m) (counting counting' : Bool)
    (calls : List CacheCall) :
    Covered ((start (Cache.empty n .unlimited counting)).run calls)
      ((start (Cache.empty m .unlimited counting')).run calls) := by
  refine .of_order (run_lifetime _ calls) (run_lifetime _ calls) ?_
  by_cases hn : 0 < n
  · obtain ⟨small, rfl⟩ : ∃ small : Nat, n = small := ⟨n.toNat, by omega⟩
    obtain ⟨large, rfl⟩ : ∃ large : Nat, m = large := ⟨m.toNat, by omega⟩
    have hle : small ≤ large := by omega
    exact ((Includes.start hle counting counting').after_run (by omega) hle calls).keys
  · have hunused : Unused (start (Cache.empty n .unlimited counting)) :=
      ⟨by simpa [start, Cache.empty] using hn, by simp [start], rfl⟩
    rw [Cache.keys, (hunused.after_run calls).empty]
    exact List.nil_sublist _

/-- A key that only the larger cache still has, which is found there and moves to the end. -/
theorem run_covered_reordered :
    let calls : List CacheCall := [.compile ⟨"/a", .null, .null⟩, .compile ⟨"/b", .null, .null⟩,
      .enter, .get ⟨"/a", .null, .null⟩, .leave]
    Covered ((start (Cache.empty 1 .unlimited true)).run calls)
        ((start (Cache.empty 2 .unlimited false)).run calls) ∧
      ((start (Cache.empty 1 .unlimited true)).run calls).cache.entries.map
        (fun e => e.shared.compiled.pattern.source) = ["/b"] ∧
      ((start (Cache.empty 2 .unlimited false)).run calls).cache.entries.map
        (fun e => e.shared.compiled.pattern.source) = ["/b", "/a"] := by
  refine ⟨run_covered (by decide) true false _, ?_, ?_⟩ <;> decide +kernel

end CacheSession

end PathRouting.Pattern
