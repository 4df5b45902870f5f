import Mathlib.Data.List.Induction
import PathRouting.Pattern.Accounting
import PathRouting.Proofs.Pattern.Fingerprint
import PathRouting.Proofs.Pattern.Recency

/-!
# What the counts of a cache tell

In a cache that counts, every look-up is a hit or a miss, every refused request is an error, and
nothing is lost: what was added is still there, was evicted, or was invalidated. The uses of an
entry are counted from the moment when something was last stored under its key.
-/
namespace PathRouting.Pattern

/-! ## Look-ups and stores -/

namespace Cache

variable {c d : Cache} {key : String} {e : CacheEntry} {shared : Shared}

theorem length_filter_ne {keys : List String} (hn : keys.Nodup) (h : key ∈ keys) :
    (keys.filter fun k => !(k == key)).length + 1 = keys.length := by
  have herase : (keys.filter fun k => !(k == key)) = keys.erase key :=
    (hn.erase_eq_filter key).symm
  have hpos : 0 < keys.length := List.length_pos_of_mem h
  rw [herase, List.length_erase_of_mem h]
  omega

theorem size_remove (hn : c.keys.Nodup) (h : key ∈ c.keys) : (c.remove key).size + 1 = c.size := by
  rw [← length_keys, ← length_keys, keys_remove]
  exact length_filter_ne hn h

theorem size_putLast (hn : c.keys.Nodup) (e : CacheEntry) :
    (c.putLast e).size = c.size + if c.hasKey e.key then 0 else 1 := by
  have hlast : (c.putLast e).size = (c.remove e.key).size + 1 := List.length_append
  rw [hlast]
  by_cases hk : e.key ∈ c.keys
  · rw [hasKey_iff.mpr hk, if_pos rfl, size_remove hn hk, Nat.add_zero]
  · rw [if_neg (mt hasKey_iff.mp hk), ← length_keys, keys_remove, filter_ne_of_notMem hk,
      length_keys]

theorem putLast_nodup (hn : c.keys.Nodup) (e : CacheEntry) : (c.putLast e).keys.Nodup := by
  rw [keys_putLast]
  exact CacheSession.filter_append_nodup hn e.key

/-- What a look-up with its result does to a cache that counts. -/
structure Looks (c : Cache) (key : String) (found : Option Shared) (d : Cache) : Prop where
  distinct : d.keys.Nodup
  hits : d.stats.hits = c.stats.hits + found.toList.length
  lookups : d.stats.hits + d.stats.misses = c.stats.hits + c.stats.misses + 1
  errors : d.stats.errors = c.stats.errors
  balance : d.size + d.stats.evictions = c.size + c.stats.evictions
  uses : ∀ e ∈ d.entries, ∃ old ∈ c.entries, old.key = e.key ∧
    e.uses = old.uses + (found.map fun _ => key).toList.count e.key

theorem miss_looks (hc : c.counting = true) (hn : c.keys.Nodup) (key : String) :
    Looks c key none c.countMiss := by
  have hstats : c.countMiss.stats = { c.stats with misses := c.stats.misses + 1 } := by
    simp [countMiss, count, hc]
  have hentries : c.countMiss.entries = c.entries := count_entries _
  constructor
  case distinct =>
    rw [keys, hentries]
    exact hn
  case lookups => rw [hstats, Nat.add_assoc]
  case balance => rw [hstats, size, hentries, size]
  case uses =>
    intro e he
    exact ⟨e, hentries ▸ he, rfl, by simp⟩
  all_goals rw [hstats] <;> rfl

theorem expired_looks (hc : c.counting = true) (hn : c.keys.Nodup) (hk : key ∈ c.keys) :
    Looks c key none (c.remove key).countEviction.countMiss := by
  have hstats : (c.remove key).countEviction.countMiss.stats =
      { c.stats with misses := c.stats.misses + 1, evictions := c.stats.evictions + 1 } := by
    simp [countMiss, countEviction, count, remove, hc]
  have hentries : (c.remove key).countEviction.countMiss.entries = (c.remove key).entries :=
    (count_entries _).trans (count_entries _)
  have hsize := size_remove hn hk
  constructor
  case distinct =>
    rw [keys, hentries]
    change (c.remove key).keys.Nodup
    exact keys_remove c key ▸ hn.filter _
  case lookups => rw [hstats, Nat.add_assoc]
  case balance =>
    rw [hstats, size, hentries]
    change (c.remove key).size + (c.stats.evictions + 1) = _
    omega
  case uses =>
    intro e he
    exact ⟨e, (List.mem_filter.mp (hentries ▸ he)).1, rfl, by simp⟩
  all_goals rw [hstats] <;> rfl

theorem hit_looks (hc : c.counting = true) (hn : c.keys.Nodup) (he : e ∈ c.entries) :
    Looks c e.key (some e.shared) (c.putLast { e with uses := e.uses + 1 }).countHit := by
  generalize hnew : ({ e with uses := e.uses + 1 } : CacheEntry) = new
  have hkey : new.key = e.key := hnew ▸ rfl
  have huses : new.uses = e.uses + 1 := hnew ▸ rfl
  have hstats : (c.putLast new).countHit.stats = { c.stats with hits := c.stats.hits + 1 } := by
    simp [countHit, count, putLast, remove, hc]
  have hentries : (c.putLast new).countHit.entries = (c.putLast new).entries := count_entries _
  have hin : e.key ∈ c.keys := mem_keys_iff.mpr ⟨e, he, rfl⟩
  constructor
  case distinct =>
    rw [keys, hentries]
    exact putLast_nodup hn new
  case lookups => rw [hstats, Nat.add_right_comm]
  case balance =>
    rw [hstats, size, hentries]
    change (c.putLast new).size + c.stats.evictions = _
    rw [size_putLast hn, hkey, hasKey_iff.mpr hin, if_pos rfl, Nat.add_zero]
  case uses =>
    intro other hm
    rcases mem_putLast (hentries ▸ hm) with rfl | ⟨hne, hold⟩
    · exact ⟨e, he, hkey.symm, by simp [hkey, huses]⟩
    · have hcount : [e.key].count other.key = 0 := by
        rw [hkey] at hne
        simpa [List.count_eq_zero] using hne
      exact ⟨other, hold, rfl, by simp [hcount]⟩
  all_goals rw [hstats] <;> rfl

theorem lookup_looks (hc : c.counting = true) (hn : c.keys.Nodup) {found : Option Shared}
    (h : c.lookup key = (found, d)) : Looks c key found d := by
  rcases lookup_cases c key with ⟨-, hl⟩ | ⟨e, hf, -, hl⟩ | ⟨e, hf, -, hl⟩ <;>
    obtain ⟨rfl, rfl⟩ := Prod.mk.inj (h.symm.trans hl)
  · exact miss_looks hc hn key
  · exact expired_looks hc hn (mem_keys_iff.mpr ⟨e, find?_ok hf⟩)
  · obtain ⟨hmem, rfl⟩ := find?_ok hf
    exact hit_looks hc hn hmem

/-- What storing something under a key does to a cache that counts. -/
structure Stores (c : Cache) (key : String) (d : Cache) : Prop where
  distinct : d.keys.Nodup
  hits : d.stats.hits = c.stats.hits
  misses : d.stats.misses = c.stats.misses
  errors : d.stats.errors = c.stats.errors
  balance : d.size + d.stats.evictions =
    c.size + c.stats.evictions + if c.hasKey key then 0 else 1
  uses : ∀ e ∈ d.entries, e.key = key ∧ e.uses = 0 ∨ e.key ≠ key ∧ e ∈ c.entries

theorem Stores.putLast (hn : c.keys.Nodup) (key : String) (shared : Shared) (time : Nat) :
    Stores c key (c.putLast ⟨key, shared, 0, time⟩) := by
  constructor
  case distinct => exact putLast_nodup hn _
  case balance =>
    change (c.putLast _).size + c.stats.evictions = _
    rw [size_putLast hn, Nat.add_right_comm]
  case uses =>
    intro e he
    rcases mem_putLast he with rfl | hold
    · exact .inl ⟨rfl, rfl⟩
    · exact .inr hold
  all_goals rfl

theorem store_stores (hc : c.counting = true) (hn : c.keys.Nodup) (hm : 0 < c.maxSize)
    (key : String) (shared : Shared) : Stores c key (c.store key shared) := by
  by_cases hfull : c.isFullFor key = true
  · -- the oldest entry goes for a new key, which then is put last
    obtain ⟨hsize, hnew⟩ : c.maxSize ≤ c.size ∧ c.hasKey key = false := by
      simpa [isFullFor] using hfull
    have hnot : key ∉ c.keys := fun h => by simp [hasKey_iff.mpr h] at hnew
    rw [store, if_pos hfull]
    have hstats : c.dropOldest.countEviction.stats =
        { c.stats with evictions := c.stats.evictions + 1 } := by
      simp [countEviction, count, dropOldest, hc]
    have hentries : c.dropOldest.countEviction.entries = c.entries.drop 1 := count_entries _
    have hkeys : c.dropOldest.countEviction.keys = c.keys.drop 1 := by
      rw [countEviction, count_keys, keys_dropOldest]
    have hlast := Stores.putLast (c := c.dropOldest.countEviction)
      (hkeys ▸ hn.sublist (List.drop_sublist 1 _)) key shared c.now
    have hgone : c.dropOldest.countEviction.hasKey key = false := by
      rw [← Bool.not_eq_true, hasKey_iff, hkeys]
      exact fun h => hnot (List.mem_of_mem_drop h)
    have hrest : c.dropOldest.countEviction.size + 1 = c.size := by
      rw [size, hentries, List.length_drop]
      simp only [size] at hsize ⊢
      omega
    have hbalance := hlast.balance
    rw [hgone, hstats] at hbalance
    refine ⟨hlast.distinct, ?_, ?_, ?_, ?_, ?_⟩
    · rw [hlast.hits, hstats]
    · rw [hlast.misses, hstats]
    · rw [hlast.errors, hstats]
    · rw [hbalance, hnew]
      dsimp only
      omega
    · intro e he
      rcases hlast.uses e he with h | ⟨hne, hold⟩
      · exact .inl h
      · exact .inr ⟨hne, List.mem_of_mem_drop (hentries ▸ hold)⟩
  · rw [store, if_neg hfull]
    exact .putLast hn key shared c.now

end Cache

/-! ## Calls -/

namespace CacheSession

open Cache

variable {s : CacheSession} {call : CacheCall} {r : Request} {key : String}

section

variable [CharacterNames]

/-- How a call is booked in a cache that counts. -/
structure Booked (s : CacheSession) (call : CacheCall) : Prop where
  distinct : (s.call call).cache.keys.Nodup
  hits : (s.call call).cache.stats.hits = s.cache.stats.hits + (s.found? call).toList.length
  lookups : (s.call call).cache.stats.hits + (s.call call).cache.stats.misses =
    s.cache.stats.hits + s.cache.stats.misses + [call].countP CacheCall.looksUp
  errors : (s.call call).cache.stats.errors =
    s.cache.stats.errors + (s.failure? call).toList.length
  balance : (s.call call).cache.size + (s.call call).cache.stats.evictions +
      (s.invalidated call).length =
    s.cache.size + s.cache.stats.evictions + (s.added? call).toList.length
  uses : ∀ e ∈ (s.call call).cache.entries,
    s.stored? call = some e.key ∧ e.uses = 0 ∨
    s.stored? call ≠ some e.key ∧ ∃ old ∈ s.cache.entries, old.key = e.key ∧
      e.uses = old.uses + (s.found? call).toList.count e.key

theorem added?_of_stored?_none (h : s.stored? call = none) : s.added? call = none := by
  rw [added?, h]
  rfl

theorem length_added? (h : s.stored? call = some key) :
    (s.added? call).toList.length = if (s.beforeStore call).hasKey key then 0 else 1 := by
  rw [added?, h]
  cases hk : (s.beforeStore call).hasKey key <;> simp [hk]

/-- A call that neither looks up nor stores drops entries at most, and those on purpose. -/
theorem Booked.filtered (hn : s.cache.keys.Nodup) (hl : call.looksUp = false)
    (hstored : s.stored? call = none)
    (hentries : (s.call call).cache.entries =
      s.cache.entries.filter fun e => !call.invalidates e.key)
    (hstats : (s.call call).cache.stats = s.cache.stats) : Booked s call := by
  have hfound : s.found? call = none := by cases call <;> first | rfl | cases hl
  have hfailure : s.failure? call = none := by cases call <;> first | rfl | cases hl
  have hkeys : (s.call call).cache.keys = s.cache.keys.filter fun k => !call.invalidates k := by
    rw [Cache.keys, hentries, Cache.keys, List.filter_map]
    rfl
  have hparts := List.length_eq_length_filter_add (l := s.cache.keys) fun k => call.invalidates k
  constructor
  case distinct => exact hkeys ▸ hn.filter _
  case hits => rw [hstats, hfound]; rfl
  case lookups => rw [hstats, List.countP_singleton, hl]; rfl
  case errors => rw [hstats, hfailure]; rfl
  case balance =>
    rw [hstats, added?_of_stored?_none hstored, ← length_keys, hkeys, invalidated, ← length_keys]
    simp only [Option.toList_none, List.length_nil]
    omega
  case uses =>
    intro e he
    rw [hentries] at he
    refine .inr ⟨by simp [hstored], e, (List.mem_filter.mp he).1, rfl, ?_⟩
    rw [hfound]
    simp

end

theorem invalidated_of_looksUp (h : call.looksUp = true) : s.invalidated call = [] := by
  cases call with
  | get r => simp [invalidated, CacheCall.invalidates]
  | compile r => simp [invalidated, CacheCall.invalidates]
  | _ => cases h

variable {first : CacheSession} {calls : List CacheCall}

section

variable [CharacterNames]

theorem Booked.looked {found : Option Shared} {d : Cache} (hlook : Looks s.cache key found d)
    (hl : call.looksUp = true) (hfound : s.found? call = found.map fun _ => key)
    (hstored : s.stored? call = none) (hentries : (s.call call).cache.entries = d.entries)
    (hstats : (s.call call).cache.stats =
      { d.stats with errors := d.stats.errors + (s.failure? call).toList.length }) :
    Booked s call := by
  have hsize : (s.call call).cache.size = d.size := congrArg List.length hentries
  constructor
  case distinct =>
    rw [Cache.keys, hentries]
    exact hlook.distinct
  case hits =>
    rw [hstats, hfound]
    cases found with
    | none => exact hlook.hits
    | some shared => exact hlook.hits
  case lookups => rw [hstats, List.countP_singleton, hl]; exact hlook.lookups
  case errors => rw [hstats, ← hlook.errors]
  case balance =>
    rw [hstats, hsize, invalidated_of_looksUp hl, added?_of_stored?_none hstored]
    exact hlook.balance
  case uses =>
    intro e he
    rw [hfound]
    exact .inr ⟨by simp [hstored], hlook.uses e (hentries ▸ he)⟩

/-- A call that looks up, finds nothing, and then stores something under the same key. -/
theorem Booked.renewed {d : Cache} (hlook : Looks s.cache key none d)
    (hstore : Stores d key (s.call call).cache) (hl : call.looksUp = true)
    (hfound : s.found? call = none) (hfailure : s.failure? call = none)
    (hbefore : s.beforeStore call = d) (hstored : s.stored? call = some key) : Booked s call := by
  constructor
  case distinct => exact hstore.distinct
  case hits => rw [hstore.hits, hlook.hits, hfound]; rfl
  case lookups => rw [hstore.hits, hstore.misses, hlook.lookups, List.countP_singleton, hl]; rfl
  case errors => rw [hstore.errors, hlook.errors, hfailure]; rfl
  case balance =>
    rw [hstore.balance, hlook.balance, length_added? hstored, hbefore, invalidated_of_looksUp hl]
    rfl
  case uses =>
    intro e he
    rcases hstore.uses e he with ⟨rfl, huses⟩ | ⟨hne, hold⟩
    · exact .inl ⟨hstored, huses⟩
    · obtain ⟨old, hmem, hsame, huses⟩ := hlook.uses e hold
      refine .inr ⟨?_, old, hmem, hsame, ?_⟩
      · rw [hstored]
        exact fun h => hne (Option.some.inj h).symm
      · rw [huses, hfound]
        rfl

theorem get_booked (hc : s.cache.counting = true) (hn : s.cache.keys.Nodup)
    (hk : r.fingerprint = .ok key) : Booked s (.get r) := by
  rcases hl : s.cache.lookup key with ⟨found, d⟩
  have hcall : (s.call (.get r)).cache = d := by rw [call_get_ok hk, hl]
  refine .looked (lookup_looks hc hn hl) rfl ?_ rfl ?_ ?_
  · exact hit?_lookup hk hl
  · rw [hcall]
  · rw [hcall]
    rfl

theorem put_booked (hc : s.cache.counting = true) (hn : s.cache.keys.Nodup) (r : Request)
    (shared : Shared) : Booked s (.put r shared) := by
  by_cases hstored : s.stored? (.put r shared) = none
  · have hcall : (s.call (.put r shared)).cache = s.cache := by
      by_cases hm : s.cache.maxSize ≤ 0
      · exact call_put_of_disabled hm r shared
      · cases hk : r.fingerprint with
        | error m => exact call_put_error hk shared
        | ok key => simp [stored?, slot?, hm, hk, Except.toOption] at hstored
    refine .filtered hn rfl hstored ?_ ?_
    · simp [hcall, CacheCall.invalidates]
    · rw [hcall]
  · obtain ⟨key, hkey⟩ := Option.ne_none_iff_exists'.mp hstored
    obtain ⟨hk, hm⟩ := slot?_eq_some_iff.mp hkey
    have hstore := store_stores hc hn hm key shared
    rw [← call_put_ok hm hk shared] at hstore
    constructor
    case distinct => exact hstore.distinct
    case hits => exact hstore.hits
    case lookups => rw [hstore.hits, hstore.misses]; rfl
    case errors => exact hstore.errors
    case balance =>
      have hbefore : s.beforeStore (.put r shared) = s.cache := rfl
      rw [length_added? hkey, hbefore, ← hstore.balance]
      simp [invalidated, CacheCall.invalidates]
    case uses =>
      intro e he
      rcases hstore.uses e he with ⟨rfl, huses⟩ | ⟨hne, hold⟩
      · exact .inl ⟨hkey, huses⟩
      · refine .inr ⟨?_, e, hold, rfl, by simp [found?]⟩
        rw [hkey]
        exact fun h => hne (Option.some.inj h).symm

/-- Compiling is a look-up, and a store if nothing was found and the request is not refused. -/
theorem compile_booked (hc : s.cache.counting = true) (hn : s.cache.keys.Nodup)
    (hkey : r.fingerprint = .ok key) : Booked s (.compile r) := by
  generalize hx : s.cache.compile r = x
  have h := hx ▸ s.cache.compile_cases r
  have hcall : (s.call (.compile r)).cache = x.2 := congrArg Prod.snd hx
  cases h with
  | keyless hk =>
    rw [hkey] at hk
    cases hk
  | @found key shared d hk hl =>
    have hhit : s.cache.hit? r = some key := hit?_lookup hk hl
    refine .looked (lookup_looks hc hn hl) rfl hhit ?_ (congrArg Cache.entries hcall) ?_
    · simp [stored?, hx, hhit]
    · rw [hcall, failure?, hx]
      rfl
  | @refused key d e hk hl hr =>
    have hd : d.counting = true := (congrArg (fun p => p.2.2) (lookup_settings hl)).trans hc
    have hentries : (s.call (.compile r)).cache.entries = d.entries := by
      rw [hcall]
      exact count_entries _
    refine .looked (lookup_looks hc hn hl) rfl ?_ ?_ hentries ?_
    · exact hit?_lookup hk hl
    · simp [stored?, hx]
    · rw [hcall, failure?, hx]
      simp [countError, count, hd]
  | @stored key d compiled hk hl hr =>
    have hsettings := lookup_settings hl
    have hd : d.counting = true := (congrArg (fun p => p.2.2) hsettings).trans hc
    have hm : d.maxSize = s.cache.maxSize := congrArg Prod.fst hsettings
    have hhit : s.cache.hit? r = none := hit?_lookup hk hl
    have hstored : s.stored? (.compile r) = s.cache.slot? r := by simp [stored?, hx, hhit]
    have hfailure : s.failure? (.compile r) = none := by rw [failure?, hx]
    have hlook := lookup_looks hc hn hl
    by_cases hp : d.maxSize ≤ 0
    · rw [if_pos hp] at hcall
      have hentries : (s.call (.compile r)).cache.entries = d.entries := by rw [hcall]
      refine .looked hlook rfl ?_ ?_ hentries ?_
      · exact hit?_lookup hk hl
      · exact hstored.trans (if_pos (hm ▸ hp))
      · rw [hcall, hfailure]
        rfl
    · rw [if_neg hp] at hcall
      have hslot : s.stored? (.compile r) = some key :=
        hstored.trans (slot?_eq_some_iff.mpr ⟨hk, by omega⟩)
      have hstore : Stores d key (s.call (.compile r)).cache := by
        obtain ⟨hdistinct, hhits, hmisses, herrors, hbalance, huses⟩ :=
          store_stores (c := { d with nextSerial := d.nextSerial + 1 }) hd hlook.distinct
            (by dsimp only; omega) key ⟨d.nextSerial, compiled⟩
        rw [hcall]
        exact ⟨hdistinct, hhits, hmisses, herrors, hbalance, huses⟩
      have hbefore : s.beforeStore (.compile r) = d := by rw [beforeStore, get_ok hk, hl]
      exact .renewed hlook hstore rfl hhit hfailure hbefore hslot

/-- Any call is booked, if what it looks up has a key, and unless all counts are forgotten. -/
theorem booked (hc : s.cache.counting = true) (hn : s.cache.keys.Nodup)
    (hkeyed : ∀ r ∈ call.request?, r.Keyed) (hreset : call ≠ .resetStats) : Booked s call := by
  have hall : (∀ k, call.invalidates k = false) →
      (s.cache.entries.filter fun e => !call.invalidates e.key) = s.cache.entries := by
    intro h
    simp [h]
  cases call with
  | get r =>
    obtain ⟨key, hk⟩ := (hkeyed r rfl).fingerprint
    exact get_booked hc hn hk
  | put r shared => exact put_booked hc hn r shared
  | compile r =>
    obtain ⟨key, hk⟩ := (hkeyed r rfl).fingerprint
    exact compile_booked hc hn hk
  | invalidate r =>
    cases hk : r.fingerprint with
    | error m =>
      have hcall : (s.call (.invalidate r)).cache = s.cache := call_invalidate_error hk
      refine .filtered hn rfl rfl ?_ (by rw [hcall])
      rw [hcall, hall fun k => by simp [CacheCall.invalidates, hk, Except.toOption]]
    | ok key =>
      have hcall : (s.call (.invalidate r)).cache = s.cache.remove key := call_invalidate_ok hk
      refine .filtered hn rfl rfl ?_ ?_
      · rw [hcall]
        refine List.filter_congr fun e _ => ?_
        simp [CacheCall.invalidates, hk, Except.toOption, eq_comm]
      · rw [hcall]
        rfl
  | clear =>
    have hnone : (s.cache.entries.filter fun e => !CacheCall.clear.invalidates e.key) = [] := by
      simp [CacheCall.invalidates]
    exact .filtered hn rfl rfl hnone.symm rfl
  | resetStats => exact absurd rfl hreset
  | leave =>
    have hsame : (s.call .leave).cache.entries = s.cache.entries ∧
        (s.call .leave).cache.stats = s.cache.stats := by
      rcases s with ⟨c, _ | ⟨size, saved⟩⟩ <;> exact ⟨rfl, rfl⟩
    exact .filtered hn rfl rfl (hsame.1.trans (hall fun _ => rfl).symm) hsame.2
  | _ => exact .filtered hn rfl rfl (hall fun _ => rfl).symm rfl

theorem failure?_eq_some (hkeyed : ∀ r ∈ call.request?, r.Keyed) {e : Failure}
    (h : s.failure? call = some e) : ∃ r, call = .compile r ∧ r.compile = .error e := by
  cases call with
  | compile r =>
    refine ⟨r, rfl, ?_⟩
    generalize hx : s.cache.compile r = x
    have hc := hx ▸ s.cache.compile_cases r
    rw [failure?, hx] at h
    cases hc with
    | keyless hk =>
      obtain ⟨key, hkey⟩ := (hkeyed r rfl).fingerprint
      rw [hkey] at hk
      cases hk
    | refused _ _ hr => exact Option.some.inj h ▸ hr
    | found => cases h
    | stored => cases h
  | _ => cases h

/-! ## Whole runs -/

theorem collect_append {α : Type} (happens : CacheSession → CacheCall → Option α)
    (s : CacheSession) (calls more : List CacheCall) :
    s.collect happens (calls ++ more) =
      s.collect happens calls ++ (s.run calls).collect happens more := by
  induction calls generalizing s with
  | nil => rfl
  | cons call rest ih => simp [collect, ih]

theorem invalidatedBy_append (s : CacheSession) (calls more : List CacheCall) :
    s.invalidatedBy (calls ++ more) =
      s.invalidatedBy calls ++ (s.run calls).invalidatedBy more := by
  induction calls generalizing s with
  | nil => rfl
  | cons call rest ih => simp [invalidatedBy, ih]

/-- The number of uses of an entry goes back to the last time that something was stored under its
key, and there was such a time. -/
def UsesSince (first : CacheSession) (calls : List CacheCall) (e : CacheEntry) : Prop :=
  ∃ earlier call later, calls = earlier ++ call :: later ∧
    (first.run earlier).stored? call = some e.key ∧
    e.key ∉ ((first.run earlier).call call).collect stored? later ∧
    e.uses = (((first.run earlier).call call).collect found? later).count e.key

/-- What the counts of a cache tell about the calls to it. -/
structure Accounts (first : CacheSession) (calls : List CacheCall) : Prop where
  distinct : (first.run calls).cache.keys.Nodup
  hits : (first.run calls).cache.stats.hits = (first.collect found? calls).length
  /-- Every look-up is a hit or a miss. -/
  lookups : (first.run calls).cache.stats.hits + (first.run calls).cache.stats.misses =
    calls.countP CacheCall.looksUp
  errors : (first.run calls).cache.stats.errors = (first.collect failure? calls).length
  /-- Every error is that of a pattern that cannot be compiled. -/
  refused : ∀ e ∈ first.collect failure? calls, ∃ r, .compile r ∈ calls ∧ r.compile = .error e
  /-- What was added is still there, or was evicted, or was dropped on purpose. -/
  balance : (first.collect added? calls).length =
    (first.run calls).cache.size + (first.run calls).cache.stats.evictions +
      (first.invalidatedBy calls).length
  uses : ∀ e ∈ (first.run calls).cache.entries, UsesSince first calls e

theorem Accounts.start (maxSize : Int) (lifetime : Lifetime) (counting : Bool) :
    Accounts (start (Cache.empty maxSize lifetime counting)) [] where
  distinct := List.nodup_nil
  hits := rfl
  lookups := rfl
  errors := rfl
  refused := fun _ he => absurd he List.not_mem_nil
  balance := rfl
  uses := fun _ he => absurd he List.not_mem_nil

theorem UsesSince.after {old e : CacheEntry} (h : UsesSince first calls old)
    (hkey : old.key = e.key) (hstored : (first.run calls).stored? call ≠ some e.key)
    (huses : e.uses = old.uses + ((first.run calls).found? call).toList.count e.key) :
    UsesSince first (calls ++ [call]) e := by
  obtain ⟨earlier, since, later, rfl, hsince, hnot, hold⟩ := h
  rw [hkey] at hsince hnot hold
  rw [run_append, run_cons] at hstored huses
  refine ⟨earlier, since, later ++ [call], by simp, hsince, ?_, ?_⟩
  · rw [collect_append, List.mem_append, not_or]
    exact ⟨hnot, by simpa [collect] using hstored⟩
  · rw [collect_append, List.count_append, huses, hold]
    simp [collect]

theorem Accounts.after (h : Accounts first calls) (hb : Booked (first.run calls) call)
    (hkeyed : ∀ r ∈ call.request?, r.Keyed) : Accounts first (calls ++ [call]) := by
  have hrun : first.run (calls ++ [call]) = (first.run calls).call call := run_append first calls _
  constructor
  case distinct => exact hrun ▸ hb.distinct
  case hits =>
    rw [hrun, hb.hits, h.hits, collect_append]
    simp [collect]
  case lookups => rw [hrun, hb.lookups, h.lookups, List.countP_append]
  case errors =>
    rw [hrun, hb.errors, h.errors, collect_append]
    simp [collect]
  case refused =>
    intro e he
    rw [collect_append] at he
    rcases List.mem_append.mp he with hold | hnew
    · obtain ⟨r, hr, hc⟩ := h.refused e hold
      exact ⟨r, List.mem_append_left _ hr, hc⟩
    · have hfailure : (first.run calls).failure? call = some e := by simpa [collect] using hnew
      obtain ⟨r, rfl, hc⟩ := failure?_eq_some hkeyed hfailure
      exact ⟨r, by simp, hc⟩
  case balance =>
    have hold := h.balance
    have hnew := hb.balance
    rw [hrun, collect_append, invalidatedBy_append]
    simp only [collect, invalidatedBy, List.length_append, List.append_nil]
    omega
  case uses =>
    intro e he
    rw [hrun] at he
    rcases hb.uses e he with ⟨hstored, huses⟩ | ⟨hnot, old, hold, hkey, huses⟩
    · exact ⟨calls, call, [], rfl, hstored, by simp [collect], by simp [collect, huses]⟩
    · exact (h.uses old hold).after hkey hnot huses

/-- Whatever is done to a cache that counts, its counts are right. -/
theorem run_accounts (maxSize : Int) (lifetime : Lifetime) {calls : List CacheCall}
    (hkeyed : ∀ call ∈ calls, ∀ r ∈ call.request?, r.Keyed) (hreset : .resetStats ∉ calls) :
    Accounts (start (Cache.empty maxSize lifetime true)) calls := by
  induction calls using List.reverseRecOn with
  | nil => exact .start maxSize lifetime true
  | append_singleton calls call ih =>
    have h := ih (fun c hm => hkeyed c (List.mem_append_left _ hm))
      fun hm => hreset (List.mem_append_left _ hm)
    have hcall := hkeyed call (by simp)
    refine h.after (booked ?_ h.distinct hcall ?_) hcall
    · exact run_counting _ calls
    · exact fun he => hreset (by simp [he])

end

/-- A hit, a pattern that is not kept, one that cannot be compiled, one that takes the place of
another, and one that is dropped. -/
theorem run_accounts_mixed :
    let calls : List CacheCall := [.compile ⟨"/a", .null, .null⟩, .get ⟨"/a", .null, .null⟩,
      .enter, .compile ⟨"/b", .null, .null⟩, .leave, .compile ⟨"/a(", .null, .null⟩,
      .compile ⟨"/b", .null, .null⟩, .invalidate ⟨"/b", .null, .null⟩,
      .compile ⟨"/<x>", .mapping [(.str "x", .list [.int 1])], .null⟩,
      .compile ⟨"/<x>", .mapping [(.str "x", .list [.int 1])], .null⟩]
    Accounts (start (Cache.empty 1 .unlimited true)) calls ∧
      ((start (Cache.empty 1 .unlimited true)).run calls).cache.stats = ⟨2, 5, 1, 1⟩ ∧
      ((start (Cache.empty 1 .unlimited true)).run calls).cache.entries.map CacheEntry.uses =
        [1] := by
  have hnone : Value.null.Holds [] := ⟨.inl ⟨rfl, rfl⟩, List.nodup_nil⟩
  have hlist : (Value.mapping [(.str "x", .list [.int 1])]).Holds [("x", .list [.int 1])] :=
    ⟨.inr rfl, by decide⟩
  have hplain : ∀ source, Request.Keyed ⟨source, .null, .null⟩ := fun _ => ⟨⟨_, hnone⟩, ⟨_, hnone⟩⟩
  have hchosen : Request.Keyed ⟨"/<x>", .mapping [(.str "x", .list [.int 1])], .null⟩ :=
    ⟨⟨_, hlist⟩, ⟨_, hnone⟩⟩
  refine ⟨run_accounts 1 .unlimited ?_ (by simp), ?_⟩
  · simp [CacheCall.request?, hplain, hchosen]
  · decide +kernel

end CacheSession

end PathRouting.Pattern
