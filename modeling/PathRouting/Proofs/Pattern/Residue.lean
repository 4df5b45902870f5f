import PathRouting.Proofs.Pattern.Caching

/-!
# What a failed compilation leaves in a cache

The answers of a cache depend neither on its counts nor on entries that have expired as soon as
they are stored. Where entries have no age to reach, a request that fails changes nothing else.
-/
namespace PathRouting.Pattern.Cache

variable {c d : Cache} {key : String} {r : Request}

/-- Caches that give the same answers, whatever is asked of both. -/
structure Alike (c d : Cache) : Prop where
  maxSize : c.maxSize = d.maxSize
  lifetime : c.lifetime = d.lifetime
  nextSerial : c.nextSerial = d.nextSerial
  now : c.now = d.now
  entries : c.lifetime ≠ .over → c.entries = d.entries

namespace Alike

theorem refl (c : Cache) : c.Alike c := ⟨rfl, rfl, rfl, rfl, fun _ => rfl⟩

theorem symm (h : c.Alike d) : d.Alike c :=
  ⟨h.maxSize.symm, h.lifetime.symm, h.nextSerial.symm, h.now.symm,
    fun hne => (h.entries (h.lifetime ▸ hne)).symm⟩

theorem trans {e : Cache} (h : c.Alike d) (h' : d.Alike e) : c.Alike e :=
  ⟨h.maxSize.trans h'.maxSize, h.lifetime.trans h'.lifetime, h.nextSerial.trans h'.nextSerial,
    h.now.trans h'.now, fun hne => (h.entries hne).trans (h'.entries (h.lifetime ▸ hne))⟩

end Alike

theorem count_alike (c : Cache) (f : CacheStats → CacheStats) : (c.count f).Alike c := by
  unfold count
  split
  · exact ⟨rfl, rfl, rfl, rfl, fun _ => rfl⟩
  · exact .refl c

theorem entries_alike (c : Cache) {entries : List CacheEntry}
    (h : c.lifetime ≠ .over → entries = c.entries) : Alike { c with entries := entries } c :=
  ⟨rfl, rfl, rfl, rfl, h⟩

namespace Alike

theorem count (h : c.Alike d) (f : CacheStats → CacheStats) : (c.count f).Alike (d.count f) :=
  (c.count_alike f).trans (h.trans (d.count_alike f).symm)

theorem hasExpired (h : c.Alike d) (e : CacheEntry) : c.hasExpired e = d.hasExpired e := by
  unfold Cache.hasExpired
  rw [h.lifetime, h.now]

theorem remove (h : c.Alike d) (key : String) : (c.remove key).Alike (d.remove key) := by
  refine ⟨h.maxSize, h.lifetime, h.nextSerial, h.now, fun hne => ?_⟩
  rw [Cache.remove, Cache.remove, h.entries hne]

theorem putLast (h : c.Alike d) (e : CacheEntry) : (c.putLast e).Alike (d.putLast e) := by
  refine ⟨h.maxSize, h.lifetime, h.nextSerial, h.now, fun hne => ?_⟩
  have hr := (h.remove e.key).entries hne
  rw [Cache.putLast, Cache.putLast, hr]

theorem store (h : c.Alike d) (key : String) (shared : Shared) :
    (c.store key shared).Alike (d.store key shared) := by
  by_cases hover : c.lifetime = .over
  · -- nothing that is kept will ever be found
    have hstore : ∀ x : Cache, x.lifetime = .over → (x.store key shared).Alike x := by
      intro x hx
      have hput : ∀ {y : Cache} {e : CacheEntry}, y.lifetime = .over → (y.putLast e).Alike y :=
        fun hy => entries_alike _ fun hne => absurd hy hne
      unfold Cache.store
      split
      · have hdrop : x.dropOldest.countEviction.Alike x :=
          (count_alike _ _).trans (entries_alike x fun hne => absurd hx hne)
        exact (hput (hdrop.lifetime.trans hx)).trans hdrop
      · exact hput hx
    exact (hstore c hover).trans (h.trans (hstore d (h.lifetime ▸ hover)).symm)
  · have hentries := h.entries hover
    have hfull : c.isFullFor key = d.isFullFor key := by
      unfold isFullFor size hasKey
      rw [hentries, h.maxSize]
    unfold Cache.store
    rw [hfull, h.now]
    split
    · have hdrop : c.dropOldest.Alike d.dropOldest := by
        refine ⟨h.maxSize, h.lifetime, h.nextSerial, h.now, fun _ => ?_⟩
        rw [dropOldest, dropOldest, hentries]
      exact (hdrop.count _).putLast _
    · exact h.putLast _

theorem lookup (h : c.Alike d) (key : String) :
    (c.lookup key).1 = (d.lookup key).1 ∧ (c.lookup key).2.Alike (d.lookup key).2 := by
  by_cases hover : c.lifetime = .over
  · have hlookup : ∀ x : Cache, x.lifetime = .over →
        (x.lookup key).1 = none ∧ (x.lookup key).2.Alike x := by
      intro x hx
      rcases lookup_cases x key with ⟨-, hl⟩ | ⟨e, -, -, hl⟩ | ⟨e, -, he, -⟩
      · rw [hl]
        dsimp only [countMiss]
        exact ⟨rfl, x.count_alike _⟩
      · rw [hl]
        dsimp only [countMiss, countEviction]
        have hremove : (x.remove key).Alike x := entries_alike x fun hne => absurd hx hne
        exact ⟨rfl, (count_alike _ _).trans ((count_alike _ _).trans hremove)⟩
      · rw [Cache.hasExpired, hx] at he
        cases he
    obtain ⟨hc, hc'⟩ := hlookup c hover
    obtain ⟨hd, hd'⟩ := hlookup d (h.lifetime ▸ hover)
    exact ⟨hc.trans hd.symm, hc'.trans (h.trans hd'.symm)⟩
  · have hfind : c.find? key = d.find? key := by
      rw [find?, find?, h.entries hover]
    rcases lookup_cases c key with ⟨hf, hl⟩ | ⟨e, hf, he, hl⟩ | ⟨e, hf, he, hl⟩
    · rw [hl, lookup_miss (hfind ▸ hf)]
      dsimp only [countMiss]
      exact ⟨rfl, h.count _⟩
    · rw [hl, lookup_expired (hfind ▸ hf) (h.hasExpired e ▸ he)]
      dsimp only [countMiss, countEviction]
      exact ⟨rfl, ((h.remove key).count _).count _⟩
    · rw [hl, lookup_hit (hfind ▸ hf) (h.hasExpired e ▸ he)]
      dsimp only [countHit]
      exact ⟨rfl, (h.putLast _).count _⟩

theorem renumbered (h : c.Alike d) : Alike { c with nextSerial := c.nextSerial + 1 }
    { d with nextSerial := d.nextSerial + 1 } :=
  ⟨h.maxSize, h.lifetime, congrArg (· + 1) h.nextSerial, h.now, h.entries⟩

theorem compile [CharacterNames] (h : c.Alike d) (r : Request) :
    (c.compile r).1 = (d.compile r).1 ∧ (c.compile r).2.Alike (d.compile r).2 := by
  cases hk : r.fingerprint with
  | error m =>
    rw [Cache.compile, Cache.compile, get_error hk, get_error hk]
    exact ⟨rfl, h⟩
  | ok key =>
    obtain ⟨hfound, hleft⟩ := h.lookup key
    rw [Cache.compile, Cache.compile, get_ok hk, get_ok hk]
    generalize c.lookup key = x at hfound hleft ⊢
    generalize d.lookup key = y at hfound hleft ⊢
    obtain ⟨found, c'⟩ := x
    obtain ⟨found', d'⟩ := y
    obtain rfl : found = found' := hfound
    cases found with
    | some shared => exact ⟨rfl, hleft⟩
    | none =>
      cases hr : r.compile with
      | error e =>
        simp only
        exact ⟨trivial, hleft.count _⟩
      | ok compiled =>
        simp only [number, put_ok hk]
        have hserial : (⟨c'.nextSerial, compiled⟩ : Shared) = ⟨d'.nextSerial, compiled⟩ :=
          congrArg (Shared.mk · compiled) hleft.nextSerial
        refine ⟨congrArg Except.ok hserial, ?_⟩
        by_cases hm : c'.maxSize ≤ 0
        · rw [if_pos hm, if_pos (hleft.maxSize ▸ hm)]
          exact hleft.renumbered
        · rw [if_neg hm, if_neg (hleft.maxSize ▸ hm), ← hserial]
          exact hleft.renumbered.store key _

theorem wait (h : c.Alike d) (ticks : Nat) : (c.wait ticks).Alike (d.wait ticks) :=
  ⟨h.maxSize, h.lifetime, h.nextSerial, congrArg (· + ticks) h.now, h.entries⟩

end Alike

/-- A request that fails leaves nothing behind in a cache whose entries have no age to reach. -/
theorem compile_failed [CharacterNames] {e : Failure} (hl : ∀ ticks, c.lifetime ≠ .limited ticks)
    (h : (c.compile r).1 = .error e) : (c.compile r).2.Alike c := by
  generalize hx : c.compile r = x at h
  have hc := hx ▸ c.compile_cases r
  cases hc with
  | keyless => exact .refl c
  | found => cases h
  | stored => cases h
  | @refused key d _ _ hlookup =>
    dsimp only [countError]
    refine (count_alike d _).trans ?_
    rcases lookup_cases c key with ⟨-, hl'⟩ | ⟨old, -, he, hl'⟩ | ⟨old, -, -, hl'⟩
    · obtain rfl := (Prod.mk.inj (hlookup.symm.trans hl')).2
      exact count_alike c _
    · obtain rfl := (Prod.mk.inj (hlookup.symm.trans hl')).2
      dsimp only [countMiss, countEviction]
      refine (count_alike _ _).trans ((count_alike _ _).trans ?_)
      refine entries_alike c fun hne => ?_
      unfold hasExpired at he
      split at he
      · cases he
      · contradiction
      · rename_i ticks hlimited
        exact absurd hlimited (hl ticks)
    · cases (Prod.mk.inj (hlookup.symm.trans hl')).1

end PathRouting.Pattern.Cache
