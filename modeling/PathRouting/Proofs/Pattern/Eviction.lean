import Mathlib.Data.List.Perm.Subperm
import PathRouting.Proofs.Pattern.Recency

/-!
# Which entry goes

A cache whose entries do not expire keeps the keys that were used last, in the order of their
last use. An entry goes when it is invalidated, or when it is the oldest one and a new key needs
its place.
-/
namespace PathRouting.Pattern

open Cache

namespace CacheSession

variable {s : CacheSession} {n : Nat} {key : String}

/-! ## Distinct keys -/

theorem dedup_append_singleton (used : List String) (key : String) :
    (used ++ [key]).dedup = (used.dedup.filter fun k => !(k == key)) ++ [key] := by
  induction used with
  | nil => simp
  | cons k rest ih =>
    rw [List.cons_append]
    by_cases hk : k ∈ rest
    · rw [List.dedup_cons_of_mem (List.mem_append_left _ hk), List.dedup_cons_of_mem hk, ih]
    · rw [List.dedup_cons_of_notMem hk]
      by_cases he : k = key
      · subst he
        rw [List.dedup_cons_of_mem (by simp), ih]
        simp
      · have hn : k ∉ rest ++ [key] := by simp [hk, he]
        rw [List.dedup_cons_of_notMem hn, ih]
        simp [he]

theorem length_le_dedup {keys used : List String} (hn : keys.Nodup) (hs : keys ⊆ used) :
    keys.length ≤ used.dedup.length :=
  (List.subperm_of_subset hn fun _ hk => List.mem_dedup.mpr (hs hk)).length_le

theorem dedup_length_le {used keys : List String} (hs : used ⊆ keys) :
    used.dedup.length ≤ keys.length :=
  (List.subperm_of_subset used.nodup_dedup fun _ hk => hs (List.mem_dedup.mp hk)).length_le

theorem filter_split {keys older newer : List String} (h : keys = older ++ key :: newer)
    {p : String → Bool} (hp : p key = true) :
    keys.filter p = older.filter p ++ key :: newer.filter p := by
  rw [h, List.filter_append, List.filter_cons_of_pos hp]

theorem filter_split_append {keys older newer : List String} (h : keys = older ++ key :: newer)
    {p : String → Bool} (hp : p key = true) (new : String) :
    keys.filter p ++ [new] = older.filter p ++ key :: (newer.filter p ++ [new]) := by
  rw [filter_split h hp, List.append_assoc, List.cons_append]

/-! ## The order of the keys -/

section

variable [CharacterNames]

theorem order_after (hb : Bounded n s) {used : List String} (ho : s.cache.keys.Sublist used.dedup)
    (call : CacheCall) :
    (s.call call).cache.keys.Sublist (used ++ (s.used? call).toList).dedup := by
  generalize hkeys : (s.call call).cache.keys = keys
  have hc := hkeys ▸ keyChange hb.lifetime call
  cases hc with
  | kept hu =>
    rw [hu]
    simpa using List.filter_sublist.trans ho
  | used hu _ =>
    rw [hu, Option.toList_some, dedup_append_singleton]
    exact (ho.filter _).append (.refl _)
  | @replaced key hu hn _ _ =>
    rw [hu, Option.toList_some, dedup_append_singleton, ← filter_ne_of_notMem hn]
    have hd := (List.drop_sublist 1 (s.cache.keys.filter fun k => !(k == key)))
    exact (hd.trans (ho.filter _)).append (.refl _)

theorem order_after_run (hb : Bounded n s) {used : List String}
    (ho : s.cache.keys.Sublist used.dedup) (calls : List CacheCall) :
    (s.run calls).cache.keys.Sublist (used ++ s.usedBy calls).dedup := by
  induction calls generalizing s used with
  | nil => simpa [run, usedBy] using ho
  | cons call rest ih =>
    have h := ih (hb.after call) (order_after hb ho call)
    rwa [List.append_assoc] at h

/-! ## Entries that go -/

/-- An entry goes when it is invalidated, or when it is the oldest one of a full cache. -/
theorem gone_cases (hb : Bounded n s) {call : CacheCall} (hk : key ∈ s.cache.keys)
    (hg : key ∉ (s.call call).cache.keys) :
    key ∈ s.invalidated call ∨ ∃ new, s.used? call = some new ∧ new ∉ s.cache.keys ∧
      s.saved = [] ∧ s.cache.keys.length = n ∧ s.cache.keys.head? = some key := by
  generalize hkeys : (s.call call).cache.keys = keys at hg
  have hc := hkeys ▸ keyChange hb.lifetime call
  cases hc with
  | kept hu =>
    refine .inl (List.mem_filter.mpr ⟨hk, ?_⟩)
    by_contra hi
    exact hg (List.mem_filter.mpr ⟨hk, by simpa using hi⟩)
  | @used new hu _ =>
    exfalso
    by_cases he : key = new
    · exact hg (by simp [he])
    · exact hg (by simp [hk, he])
  | @replaced new hu hn hp hf =>
    have hsize := hb.size
    obtain ⟨hs, hm⟩ : s.saved = [] ∧ s.cache.maxSize = n := by
      rcases hb.sized.maxSize_eq with h | ⟨-, hz⟩
      · exact h
      · omega
    refine .inr ⟨new, hu, hn, hs, by omega, ?_⟩
    cases hks : s.cache.keys with
    | nil => simp [hks] at hk
    | cons oldest newer =>
      rw [hks] at hk hg
      rcases List.mem_cons.mp hk with rfl | hm
      · rfl
      · exact absurd (List.mem_append_left _ hm) hg

end

/-- Where a key stands after keys in `used`: it is there, and what comes behind it was used; or
as many other keys were used as there are places. -/
def Behind (n : Nat) (key : String) (used keys : List String) : Prop :=
  n ≤ used.dedup.length ∨ ∃ older newer, keys = older ++ key :: newer ∧ newer ⊆ used

theorem Behind.mem {used keys : List String} (h : Behind n key used keys)
    (hu : used.dedup.length < n) : key ∈ keys := by
  rcases h with h | ⟨older, newer, rfl, -⟩
  · omega
  · simp

theorem Behind.after [CharacterNames] (hb : Bounded n s) {used : List String}
    (h : Behind n key used s.cache.keys) {call : CacheCall} (hu : s.used? call ≠ some key)
    (hi : key ∉ s.invalidated call) :
    Behind n key (used ++ (s.used? call).toList) (s.call call).cache.keys := by
  -- once as many others were used as there are places, nothing more is to show
  rcases h with h | ⟨older, newer, hks, hs⟩
  · refine .inl (Nat.le_trans h (length_le_dedup used.nodup_dedup ?_))
    intro k hk
    exact List.mem_append_left _ (List.mem_dedup.mp hk)
  generalize hkeys : (s.call call).cache.keys = keys
  have hc := hkeys ▸ keyChange hb.lifetime call
  cases hc with
  | kept hn =>
    have hstay : (!call.invalidates key) = true := by
      rw [invalidated, List.mem_filter, hks] at hi
      simpa using hi
    exact .inr ⟨_, _, filter_split hks hstay, fun k hk =>
      List.mem_append_left _ (hs (List.mem_of_mem_filter hk))⟩
  | @used new hn _ =>
    have hne : key ≠ new := fun he => hu (he ▸ hn)
    have hstay : (!(key == new)) = true := by simpa using hne
    refine .inr ⟨_, _, filter_split_append hks hstay new, ?_⟩
    rw [hn]
    exact List.append_subset.mpr ⟨fun k hk =>
      List.mem_append_left _ (hs (List.mem_of_mem_filter hk)), List.subset_append_right _ _⟩
  | @replaced new hn hnew hp hf =>
    have hsize := hb.size
    have hfull : s.cache.keys.length = n := by
      rcases hb.sized.maxSize_eq with ⟨-, hm⟩ | ⟨-, hm⟩ <;> omega
    rw [hn]
    have hnewer : newer ++ [new] ⊆ used ++ [new] :=
      List.append_subset.mpr ⟨fun k hk => List.mem_append_left _ (hs hk),
        List.subset_append_right _ _⟩
    cases older with
    | nil =>
      -- the key goes: it and the keys behind it fill the cache, so `n` others were used
      refine .inl ?_
      have hnodup : (newer ++ [new]).Nodup := by
        have hd := hb.nodup
        rw [hks, List.nil_append, List.nodup_cons] at hd
        rw [hks] at hnew
        exact hd.2.append (List.nodup_singleton new) fun k hk he =>
          hnew (List.mem_cons_of_mem _ (List.mem_singleton.mp he ▸ hk))
      have hle := length_le_dedup hnodup hnewer
      rw [hks] at hfull
      simp at hle hfull ⊢
      omega
    | cons oldest older =>
      refine .inr ⟨older, newer ++ [new], ?_, hnewer⟩
      rw [hks]
      simp

theorem Behind.after_run [CharacterNames] (hb : Bounded n s) {used : List String}
    (h : Behind n key used s.cache.keys) (calls : List CacheCall) (hu : key ∉ s.usedBy calls)
    (hi : key ∉ s.invalidatedBy calls) :
    Behind n key (used ++ s.usedBy calls) (s.run calls).cache.keys := by
  induction calls generalizing s used with
  | nil => simpa [run, usedBy] using h
  | cons call rest ih =>
    rw [usedBy, List.mem_append, not_or] at hu
    rw [invalidatedBy, List.mem_append, not_or] at hi
    have hne : s.used? call ≠ some key := fun he => hu.1 (by simp [he])
    have h := ih (hb.after call) (h.after hb hne hi.1) hu.2 hi.2
    rwa [List.append_assoc] at h

/-- The keys that were used since a key was used stand behind it, as long as it is there. -/
def Ahead (key : String) (used keys : List String) : Prop :=
  key ∉ keys ∨ ∃ older newer, keys = older ++ key :: newer ∧ used ⊆ newer

theorem Ahead.after [CharacterNames] (hb : Bounded n s) {used : List String}
    (h : Ahead key used s.cache.keys)
    {call : CacheCall} (hu : s.used? call ≠ some key) (hi : s.invalidated call = []) :
    Ahead key (used ++ (s.used? call).toList) (s.call call).cache.keys := by
  generalize hkeys : (s.call call).cache.keys = keys
  have hc := hkeys ▸ keyChange hb.lifetime call
  cases hc with
  | kept hn =>
    have hsame : (s.cache.keys.filter fun k => !call.invalidates k) = s.cache.keys := by
      rw [List.filter_eq_self]
      intro k hk
      have hi := List.filter_eq_nil_iff.mp hi k hk
      simpa using hi
    rw [hsame, hn]
    simpa using h
  | @used new hn _ =>
    have hne : key ≠ new := fun he => hu (he ▸ hn)
    have hstay : (!(key == new)) = true := by simpa using hne
    rcases h with h | ⟨older, newer, hks, hs⟩
    · exact .inl (by simp [h, hne])
    · refine .inr ⟨_, _, filter_split_append hks hstay new, ?_⟩
      rw [hn, Option.toList_some]
      intro k hk
      by_cases he : k = new
      · simp [he]
      · have hm : k ∈ used := by simpa [he] using hk
        simp [hs hm, he]
  | @replaced new hn _ hp hf =>
    have hne : key ≠ new := fun he => hu (he ▸ hn)
    rcases h with h | ⟨older, newer, hks, hs⟩
    · refine .inl fun hm => ?_
      rcases List.mem_append.mp hm with hm | hm
      · exact h (List.mem_of_mem_drop hm)
      · exact hne (List.mem_singleton.mp hm)
    · cases older with
      | nil =>
        -- the key is the oldest one and goes; it is not among those behind it
        have hd := hb.nodup
        rw [hks, List.nil_append, List.nodup_cons] at hd
        refine .inl ?_
        rw [hks]
        simp [hd.1, hne]
      | cons oldest older =>
        refine .inr ⟨older, newer ++ [new], by rw [hks]; simp, ?_⟩
        rw [hn, Option.toList_some]
        intro k hk
        rcases List.mem_append.mp hk with hm | hm
        · exact List.mem_append_left _ (hs hm)
        · exact List.mem_append_right _ hm

theorem Ahead.after_run [CharacterNames] (hb : Bounded n s) {used : List String}
    (h : Ahead key used s.cache.keys) (calls : List CacheCall) (hu : key ∉ s.usedBy calls)
    (hi : s.invalidatedBy calls = []) :
    Ahead key (used ++ s.usedBy calls) (s.run calls).cache.keys := by
  induction calls generalizing s used with
  | nil => simpa [run, usedBy] using h
  | cons call rest ih =>
    rw [usedBy, List.mem_append, not_or] at hu
    obtain ⟨hi, hir⟩ := List.append_eq_nil_iff.mp hi
    have hne : s.used? call ≠ some key := fun he => hu.1 (by simp [he])
    have h := ih (hb.after call) (h.after hb hne hi) hu.2 hir
    rwa [List.append_assoc] at h

theorem Ahead.notMem (hb : Bounded n s) {used : List String} (h : Ahead key used s.cache.keys)
    (hu : n ≤ used.dedup.length) : key ∉ s.cache.keys := by
  rcases h with h | ⟨older, newer, hks, hs⟩
  · exact h
  · have hle := dedup_length_le hs
    have hsize := hb.size
    rw [hks] at hsize
    simp at hsize
    omega

section

variable [CharacterNames]

theorem used_last (hb : Bounded n s) {call : CacheCall} (hu : s.used? call = some key) :
    ∃ older, (s.call call).cache.keys = older ++ [key] := by
  generalize hkeys : (s.call call).cache.keys = keys
  have hc := hkeys ▸ keyChange hb.lifetime call
  cases hc with
  | kept hn => rw [hu] at hn; cases hn
  | used hn _ =>
    obtain rfl := Option.some.inj (hu.symm.trans hn)
    exact ⟨_, rfl⟩
  | replaced hn _ _ _ =>
    obtain rfl := Option.some.inj (hu.symm.trans hn)
    exact ⟨_, rfl⟩

/-! ## Whole runs -/

theorem refused_entries (hu : s.cache.lifetime = .unlimited) {r : Request} {e : Failure}
    (h : (s.cache.compile r).1 = .error e) :
    (s.call (.compile r)).cache.entries = s.cache.entries := by
  generalize hx : s.cache.compile r = x at h
  have hc := hx ▸ s.cache.compile_cases r
  have hcall : (s.call (.compile r)).cache = x.2 := congrArg Prod.snd hx
  rw [hcall]
  cases hc with
  | keyless _ => rfl
  | found _ _ => cases h
  | refused _ hl _ =>
    rcases lookup_unlimited hu hl with ⟨-, -, he⟩ | ⟨old, -, -, hf, -⟩
    · exact (count_entries _).trans he
    · cases hf
  | stored _ _ _ => cases h

theorem within_of_disabled (hm : s.cache.maxSize ≤ 0) (call : CacheCall) :
    (s.call call).cache.Within s.cache := by
  cases call with
  | put r shared => exact call_put_of_disabled hm r shared ▸ .refl _
  | compile r =>
    generalize hx : s.cache.compile r = x
    have hc := hx ▸ s.cache.compile_cases r
    have hcall : (s.call (.compile r)).cache = x.2 := congrArg Prod.snd hx
    rw [hcall]
    cases hc with
    | keyless _ => exact .refl _
    | found _ hl => exact lookup_within hl
    | refused _ hl _ =>
      intro e he
      exact lookup_within hl e (by simpa [countError] using he)
    | @stored key d compiled _ hl _ =>
      have hd : d.maxSize ≤ 0 := by
        have hs : d.maxSize = s.cache.maxSize := congrArg Prod.fst (lookup_settings hl)
        omega
      rw [if_pos hd]
      exact lookup_within (d := d) hl
  | _ =>
    refine call_within ?_ ?_
    · intro r shared he
      cases he
    · intro r he
      cases he

/-- What is true of a cache for `n` entries that do not expire, after calls to it. -/
structure LeastRecentlyUsed (n : Nat) (first : CacheSession) (calls : List CacheCall) : Prop where
  size : (first.run calls).cache.size ≤ n
  /-- The keys stand in the order of their last use: `dedup` keeps the last of equal ones. -/
  order : (first.run calls).cache.keys.Sublist (first.usedBy calls).dedup
  /-- Outside of blocks the cache has its chosen size again. -/
  restored : (first.run calls).saved = [] → (first.run calls).cache.maxSize = n
  /-- An entry goes when it is invalidated, or when something is stored under a new key while
  the cache is full. Then it is the oldest one, and no block is open. -/
  gone : ∀ {call key}, key ∈ (first.run calls).cache.keys →
    key ∉ ((first.run calls).call call).cache.keys →
    key ∈ (first.run calls).invalidated call ∨
    ∃ new, (first.run calls).used? call = some new ∧ new ∉ (first.run calls).cache.keys ∧
      (first.run calls).saved = [] ∧ (first.run calls).cache.keys.length = n ∧
      (first.run calls).cache.keys.head? = some key
  /-- In a block nothing is stored, and nothing goes that is not invalidated. -/
  blocked : (first.run calls).saved ≠ [] → ∀ call,
    ((first.run calls).call call).cache.Within (first.run calls).cache ∧
    ∀ key ∈ (first.run calls).cache.keys, key ∉ (first.run calls).invalidated call →
      key ∈ ((first.run calls).call call).cache.keys
  /-- A request that is refused changes no entry. -/
  refused : ∀ {r e}, ((first.run calls).cache.compile r).1 = .error e →
    ((first.run calls).call (.compile r)).cache.entries = (first.run calls).cache.entries
  /-- A key stays while less than `n` others are used, if it is not invalidated. -/
  stays : ∀ {earlier call later key}, calls = earlier ++ call :: later →
    (first.run earlier).used? call = some key →
    key ∉ ((first.run earlier).call call).usedBy later →
    key ∉ ((first.run earlier).call call).invalidatedBy later →
    (((first.run earlier).call call).usedBy later).dedup.length < n →
    key ∈ (first.run calls).cache.keys
  /-- A key is gone after `n` others were used, if nothing was invalidated. -/
  ousted : ∀ {earlier call later key}, calls = earlier ++ call :: later →
    (first.run earlier).used? call = some key →
    key ∉ ((first.run earlier).call call).usedBy later →
    ((first.run earlier).call call).invalidatedBy later = [] →
    n ≤ (((first.run earlier).call call).usedBy later).dedup.length →
    key ∉ (first.run calls).cache.keys

/-- A cache whose entries do not expire keeps those that were used last, whatever is done. -/
theorem run_leastRecentlyUsed (n : Nat) (counting : Bool) (calls : List CacheCall) :
    LeastRecentlyUsed n (start (Cache.empty n .unlimited counting)) calls := by
  have hfirst := Bounded.start n counting
  generalize hs : start (Cache.empty n .unlimited counting) = first at hfirst ⊢
  have hnone : first.cache.keys = [] := by
    rw [← hs]
    rfl
  have hb := hfirst.after_run calls
  constructor
  case size => exact length_keys _ ▸ hb.size
  case order =>
    have ho : first.cache.keys.Sublist ([] : List String).dedup := by
      rw [hnone]
      exact .slnil
    exact order_after_run hfirst ho calls
  case restored =>
    intro hsaved
    rcases hb.sized.maxSize_eq with ⟨-, hm⟩ | ⟨hne, -⟩
    · exact hm
    · exact absurd hsaved hne
  case gone =>
    intro call key hk hg
    exact gone_cases hb hk hg
  case blocked =>
    intro hopen call
    have hm : (first.run calls).cache.maxSize ≤ 0 := by
      rcases hb.sized.maxSize_eq with ⟨hclosed, -⟩ | ⟨-, hz⟩
      · exact absurd hclosed hopen
      · omega
    refine ⟨within_of_disabled hm call, ?_⟩
    intro key hk hi
    by_contra hg
    rcases gone_cases hb hk hg with h | ⟨-, -, -, hclosed, -⟩
    · exact hi h
    · exact hopen hclosed
  case refused =>
    intro r e h
    exact refused_entries hb.lifetime h
  case stays =>
    rintro earlier call later key rfl hu hn hi hlt
    have hcall := (hfirst.after_run earlier).after call
    obtain ⟨older, hlast⟩ := used_last (hfirst.after_run earlier) hu
    have hbehind : Behind n key [] ((first.run earlier).call call).cache.keys :=
      .inr ⟨older, [], hlast, List.nil_subset _⟩
    rw [run_append, run_cons]
    exact (hbehind.after_run hcall later hn hi).mem hlt
  case ousted =>
    rintro earlier call later key rfl hu hn hi hle
    have hcall := (hfirst.after_run earlier).after call
    obtain ⟨older, hlast⟩ := used_last (hfirst.after_run earlier) hu
    have hahead : Ahead key [] ((first.run earlier).call call).cache.keys :=
      .inr ⟨older, [], hlast, List.nil_subset _⟩
    rw [run_append, run_cons]
    exact (hahead.after_run hcall later hn hi).notMem (hcall.after_run later) hle

end

example : ((start (Cache.empty 1 .unlimited true)).run [.compile ⟨"/a", .null, .null⟩, .enter,
    .compile ⟨"/b", .null, .null⟩, .leave]).cache.keys =
      (Request.fingerprint ⟨"/a", .null, .null⟩).toOption.toList := by decide +kernel

end CacheSession

end PathRouting.Pattern
