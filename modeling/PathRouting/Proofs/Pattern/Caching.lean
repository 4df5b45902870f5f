import PathRouting.Pattern.History

/-!
# What single calls do to a cache

A look-up leaves the entries alone, drops one that has expired, or moves one to the end. To
compile a request is to look it up first, and to store what was compiled last.
-/
namespace PathRouting.Pattern.Cache

variable {c d : Cache} {key : String} {r : Request} {e : CacheEntry}

/-! ## Entries and keys -/

@[simp] theorem count_entries (f : CacheStats → CacheStats) : (c.count f).entries = c.entries := by
  unfold count
  split <;> rfl

@[simp] theorem count_keys (f : CacheStats → CacheStats) : (c.count f).keys = c.keys :=
  congrArg (List.map CacheEntry.key) (count_entries f)

/-- What is chosen for a cache: its size, the lifetime of entries, and whether it counts. -/
def settings (c : Cache) : Int × Lifetime × Bool := (c.maxSize, c.lifetime, c.counting)

@[simp] theorem count_settings (f : CacheStats → CacheStats) :
    (c.count f).settings = c.settings := by
  unfold count
  split <;> rfl

@[simp] theorem remove_settings (c : Cache) (key : String) :
    (c.remove key).settings = c.settings := rfl

@[simp] theorem putLast_settings (c : Cache) (e : CacheEntry) :
    (c.putLast e).settings = c.settings := rfl

@[simp] theorem store_settings (c : Cache) (key : String) (shared : Shared) :
    (c.store key shared).settings = c.settings := by
  unfold store
  split
  · exact (putLast_settings _ _).trans (count_settings _)
  · rfl

theorem mem_keys_iff : key ∈ c.keys ↔ ∃ e ∈ c.entries, e.key = key := List.mem_map

theorem hasKey_iff : c.hasKey key = true ↔ key ∈ c.keys := by
  simp [hasKey, mem_keys_iff]

theorem find?_ok (h : c.find? key = some e) : e ∈ c.entries ∧ e.key = key :=
  ⟨List.mem_of_find?_eq_some h, by simpa using List.find?_some h⟩

theorem find?_eq_none_iff : c.find? key = none ↔ key ∉ c.keys := by
  rw [mem_keys_iff, find?, List.find?_eq_none]
  simp

theorem keys_remove (c : Cache) (key : String) :
    (c.remove key).keys = c.keys.filter fun k => !(k == key) := by
  simp [keys, remove, List.filter_map, Function.comp_def]

theorem keys_putLast (c : Cache) (e : CacheEntry) :
    (c.putLast e).keys = (c.keys.filter fun k => !(k == e.key)) ++ [e.key] := by
  rw [← keys_remove]
  simp [keys, putLast]

theorem mem_putLast {new : CacheEntry} (h : e ∈ (c.putLast new).entries) :
    e = new ∨ e.key ≠ new.key ∧ e ∈ c.entries := by
  rcases List.mem_append.mp h with he | he
  · obtain ⟨hold, hne⟩ := List.mem_filter.mp he
    exact .inr ⟨by simpa using hne, hold⟩
  · exact .inl (List.mem_singleton.mp he)

theorem keys_dropOldest (c : Cache) : c.dropOldest.keys = c.keys.drop 1 := List.map_drop

theorem length_keys (c : Cache) : c.keys.length = c.size := List.length_map _

theorem filter_ne_of_notMem {keys : List String} (h : key ∉ keys) :
    (keys.filter fun k => !(k == key)) = keys := by
  rw [List.filter_eq_self]
  intro k hk
  have hne : k ≠ key := fun he => h (he ▸ hk)
  simpa using hne

/-- What is stored comes last. Only a new key drops the oldest one, where there is no room. -/
theorem keys_store (c : Cache) (key : String) (shared : Shared) :
    ((key ∈ c.keys ∨ (c.keys.length : Int) < c.maxSize) ∧
      (c.store key shared).keys = (c.keys.filter fun k => !(k == key)) ++ [key]) ∨
    (key ∉ c.keys ∧ c.maxSize ≤ c.keys.length ∧
      (c.store key shared).keys = c.keys.drop 1 ++ [key]) := by
  by_cases hk : key ∈ c.keys
  · have hf : c.isFullFor key = false := by simp [isFullFor, hasKey_iff.mpr hk]
    refine .inl ⟨.inl hk, ?_⟩
    rw [store, hf, if_neg Bool.false_ne_true, keys_putLast]
  · have hh : c.hasKey key = false := by
      rw [← Bool.not_eq_true, hasKey_iff]
      exact hk
    by_cases hm : c.maxSize ≤ c.keys.length
    · have hf : c.isFullFor key = true := by
        rw [length_keys] at hm
        simp [isFullFor, hh, hm]
      refine .inr ⟨hk, hm, ?_⟩
      have hd : key ∉ c.keys.drop 1 := fun h => hk (List.mem_of_mem_drop h)
      rw [store, if_pos hf, keys_putLast, countEviction, count_keys, keys_dropOldest,
        filter_ne_of_notMem hd]
    · have hf : c.isFullFor key = false := by
        rw [length_keys] at hm
        simp [isFullFor, hm]
      refine .inl ⟨.inr (by omega), ?_⟩
      rw [store, hf, if_neg Bool.false_ne_true, keys_putLast]

/-! ## Looking up and compiling -/

theorem lookup_miss (h : c.find? key = none) : c.lookup key = (none, c.countMiss) := by
  rw [lookup, h]

theorem lookup_expired (h : c.find? key = some e) (he : c.hasExpired e = true) :
    c.lookup key = (none, (c.remove key).countEviction.countMiss) := by
  simp only [lookup, h, he, if_true]

theorem lookup_hit (h : c.find? key = some e) (he : c.hasExpired e = false) :
    c.lookup key = (some e.shared, (c.putLast { e with uses := e.uses + 1 }).countHit) := by
  simp only [lookup, h, he, Bool.false_eq_true, if_false]

theorem lookup_cases (c : Cache) (key : String) :
    (c.find? key = none ∧ c.lookup key = (none, c.countMiss)) ∨
    (∃ e, c.find? key = some e ∧ c.hasExpired e = true ∧
      c.lookup key = (none, (c.remove key).countEviction.countMiss)) ∨
    ∃ e, c.find? key = some e ∧ c.hasExpired e = false ∧
      c.lookup key = (some e.shared, (c.putLast { e with uses := e.uses + 1 }).countHit) := by
  cases hf : c.find? key with
  | none => exact .inl ⟨rfl, lookup_miss hf⟩
  | some e =>
    cases he : c.hasExpired e with
    | true => exact .inr (.inl ⟨e, rfl, he, lookup_expired hf he⟩)
    | false => exact .inr (.inr ⟨e, rfl, he, lookup_hit hf he⟩)

theorem lookup_settings {found : Option Shared} (h : c.lookup key = (found, d)) :
    d.settings = c.settings := by
  rcases lookup_cases c key with ⟨-, hl⟩ | ⟨e, -, -, hl⟩ | ⟨e, -, -, hl⟩ <;>
    rw [hl] at h <;> obtain ⟨-, rfl⟩ := Prod.mk.inj h <;>
    simp [countMiss, countHit, countEviction]

theorem lookup_unlimited {found : Option Shared} (hu : c.lifetime = .unlimited)
    (h : c.lookup key = (found, d)) :
    (found = none ∧ key ∉ c.keys ∧ d.entries = c.entries) ∨
    ∃ e ∈ c.entries, e.key = key ∧ found = some e.shared ∧
      d.entries = (c.putLast { e with uses := e.uses + 1 }).entries := by
  rcases lookup_cases c key with ⟨hf, hl⟩ | ⟨e, -, he, -⟩ | ⟨e, hf, -, hl⟩
  · obtain ⟨rfl, rfl⟩ := Prod.mk.inj (h.symm.trans hl)
    exact .inl ⟨rfl, find?_eq_none_iff.mp hf, count_entries _⟩
  · rw [hasExpired, hu] at he
    cases he
  · obtain ⟨rfl, rfl⟩ := Prod.mk.inj (h.symm.trans hl)
    obtain ⟨hmem, hkey⟩ := find?_ok hf
    exact .inr ⟨e, hmem, hkey, rfl, count_entries _⟩

/-- Every entry of a cache is one of another cache, but for how often it was used. -/
def Within (d c : Cache) : Prop :=
  ∀ e ∈ d.entries, ∃ old ∈ c.entries,
    old.key = e.key ∧ old.shared = e.shared ∧ old.storedAt = e.storedAt

theorem Within.of_subset (h : d.entries ⊆ c.entries) : d.Within c :=
  fun e he => ⟨e, h he, rfl, rfl, rfl⟩

theorem Within.refl (c : Cache) : c.Within c := .of_subset (List.Subset.refl _)

theorem remove_within (c : Cache) (key : String) : (c.remove key).Within c :=
  .of_subset fun _ he => (List.mem_filter.mp he).1

theorem lookup_within {found : Option Shared} (h : c.lookup key = (found, d)) : d.Within c := by
  intro e he
  rcases lookup_cases c key with ⟨-, hl⟩ | ⟨-, -, -, hl⟩ | ⟨old, hf, -, hl⟩ <;>
    obtain rfl := (Prod.mk.inj (h.symm.trans hl)).2
  · exact ⟨e, by simpa [countMiss] using he, rfl, rfl, rfl⟩
  · rw [countMiss, count_entries, countEviction, count_entries] at he
    exact remove_within c key e he
  · rw [countHit, count_entries] at he
    rcases List.mem_append.mp he with hm | hm
    · exact remove_within c _ e hm
    · obtain rfl := List.mem_singleton.mp hm
      exact ⟨old, (find?_ok hf).1, rfl, rfl, rfl⟩

theorem lookup_found {shared : Shared} (h : c.lookup key = (some shared, d)) :
    ∃ e ∈ c.entries, e.key = key ∧ e.shared = shared ∧ c.hasExpired e = false := by
  rcases lookup_cases c key with ⟨-, hl⟩ | ⟨-, -, -, hl⟩ | ⟨e, hf, he, hl⟩ <;>
    have hs := (Prod.mk.inj (h.symm.trans hl)).1
  · cases hs
  · cases hs
  · exact ⟨e, (find?_ok hf).1, (find?_ok hf).2, (Option.some.inj hs).symm, he⟩

theorem get_error {m : Misuse} (h : r.fingerprint = .error m) : c.get r = (.error m, c) := by
  rw [get, h]

theorem get_ok (h : r.fingerprint = .ok key) :
    c.get r = (.ok (c.lookup key).1, (c.lookup key).2) := by
  rw [get, h]

theorem hit?_ok (h : r.fingerprint = .ok key) :
    c.hit? r = (c.lookup key).1.map fun _ => key := by
  rw [hit?, get_ok h]
  cases (c.lookup key).1 with
  | none => rfl
  | some shared => simp [h, Except.toOption]

theorem hit?_lookup {found : Option Shared} (h : r.fingerprint = .ok key)
    (hl : c.lookup key = (found, d)) : c.hit? r = found.map fun _ => key := by
  rw [hit?_ok h, hl]

theorem slot?_eq_some_iff : c.slot? r = some key ↔ r.fingerprint = .ok key ∧ 0 < c.maxSize := by
  rw [slot?]
  split
  · simp
    omega
  · cases r.fingerprint with
    | error m => simp [Except.toOption]
    | ok own =>
      simp [Except.toOption]
      omega

theorem put_ok (h : r.fingerprint = .ok key) (shared : Shared) :
    c.put r shared = .ok (if c.maxSize ≤ 0 then c else c.store key shared) := by
  unfold put
  split
  · rfl
  · rw [h]
    rfl

/-- How compiling a request ends: it has no key, it is found, it is refused, or it is compiled
and stored. -/
inductive Compiles [CharacterNames] (c : Cache) (r : Request) :
    Except Failure Shared × Cache → Prop where
  | keyless {m : Misuse} : r.fingerprint = .error m → Compiles c r (.error (.misuse m), c)
  | found {key : String} {shared : Shared} {d : Cache} : r.fingerprint = .ok key →
      c.lookup key = (some shared, d) → Compiles c r (.ok shared, d)
  | refused {key : String} {d : Cache} {e : Failure} : r.fingerprint = .ok key →
      c.lookup key = (none, d) → r.compile = .error e → Compiles c r (.error e, d.countError)
  | stored {key : String} {d : Cache} {compiled : Compiled} : r.fingerprint = .ok key →
      c.lookup key = (none, d) → r.compile = .ok compiled →
      Compiles c r (.ok ⟨d.nextSerial, compiled⟩,
        if d.maxSize ≤ 0 then { d with nextSerial := d.nextSerial + 1 }
        else { d with nextSerial := d.nextSerial + 1 }.store key ⟨d.nextSerial, compiled⟩)

theorem compile_cases [CharacterNames] (c : Cache) (r : Request) : c.Compiles r (c.compile r) := by
  cases hk : r.fingerprint with
  | error m =>
    have hc : c.compile r = (.error (.misuse m), c) := by rw [compile, get_error hk]
    rw [hc]
    exact .keyless hk
  | ok key =>
    rcases hl : c.lookup key with ⟨_ | shared, d⟩
    · have hg : c.get r = (.ok none, d) := by rw [get_ok hk, hl]
      cases hr : r.compile with
      | error e =>
        have hc : c.compile r = (.error e, d.countError) := by rw [compile, hg]; simp only [hr]
        rw [hc]
        exact .refused hk hl hr
      | ok compiled =>
        have hs := Compiles.stored (c := c) hk hl hr
        rw [compile, hg]
        simp only [hr, number, put_ok hk]
        exact hs
    · have hc : c.compile r = (.ok shared, d) := by rw [compile, get_ok hk, hl]
      rw [hc]
      exact .found hk hl

theorem get_settings (c : Cache) (r : Request) : (c.get r).2.settings = c.settings := by
  cases hk : r.fingerprint with
  | error m => rw [get_error hk]
  | ok key =>
    rw [get_ok hk]
    exact lookup_settings rfl

theorem compile_settings [CharacterNames] (c : Cache) (r : Request) :
    (c.compile r).2.settings = c.settings := by
  generalize hx : c.compile r = x
  have h := hx ▸ c.compile_cases r
  cases h with
  | keyless => rfl
  | found _ hl => exact lookup_settings hl
  | refused _ hl _ => exact (count_settings _).trans (lookup_settings hl)
  | stored _ hl _ =>
    have hd := lookup_settings hl
    dsimp only
    split
    · exact hd
    · exact (store_settings _ _ _).trans hd

end PathRouting.Pattern.Cache
