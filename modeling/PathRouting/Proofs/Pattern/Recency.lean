import Mathlib.Data.List.Dedup
import PathRouting.Proofs.Pattern.Caching

/-!
# The order of last use

Where entries do not expire, a cache is a list of keys in the order of their last use. A key is
used when it is found or something is stored under it. The oldest key goes when a new one comes
and there is no room.
-/
namespace PathRouting.Pattern

open Cache

namespace CacheSession

variable {s : CacheSession} {n : Nat} {key : String} {r : Request} {m : Misuse}

/-! ## What single calls come to -/

section

variable [CharacterNames]

theorem call_get_error (h : r.fingerprint = .error m) : (s.call (.get r)).cache = s.cache :=
  congrArg Prod.snd (get_error h)

theorem call_get_ok (h : r.fingerprint = .ok key) :
    (s.call (.get r)).cache = (s.cache.lookup key).2 := congrArg Prod.snd (get_ok h)

theorem call_put_of_disabled (hm : s.cache.maxSize ≤ 0) (r : Request) (shared : Shared) :
    (s.call (.put r shared)).cache = s.cache := by
  rw [call, put, if_pos hm]
  rfl

theorem call_put_error (h : r.fingerprint = .error m) (shared : Shared) :
    (s.call (.put r shared)).cache = s.cache := by
  rw [call, put, h]
  split <;> rfl

theorem call_put_ok (hm : 0 < s.cache.maxSize) (h : r.fingerprint = .ok key) (shared : Shared) :
    (s.call (.put r shared)).cache = s.cache.store key shared := by
  rw [call, put_ok h, if_neg (by omega)]
  rfl

theorem call_invalidate_error (h : r.fingerprint = .error m) :
    (s.call (.invalidate r)).cache = s.cache := by
  rw [call, invalidate, h]
  rfl

theorem call_invalidate_ok (h : r.fingerprint = .ok key) :
    (s.call (.invalidate r)).cache = s.cache.remove key := by
  rw [call, invalidate, h]
  rfl

theorem call_settings {call : CacheCall} (he : call ≠ .enter) (hl : call ≠ .leave) :
    (s.call call).cache.settings = s.cache.settings ∧ (s.call call).saved = s.saved := by
  cases call with
  | get r => exact ⟨get_settings _ r, rfl⟩
  | put r shared =>
    refine ⟨?_, rfl⟩
    by_cases hm : s.cache.maxSize ≤ 0
    · rw [call_put_of_disabled hm]
    · cases hk : r.fingerprint with
      | error m => rw [call_put_error hk]
      | ok key => rw [call_put_ok (by omega) hk, store_settings]
  | compile r => exact ⟨compile_settings _ r, rfl⟩
  | invalidate r =>
    refine ⟨?_, rfl⟩
    cases hk : r.fingerprint with
    | error m => rw [call_invalidate_error hk]
    | ok key => rw [call_invalidate_ok hk, remove_settings]
  | enter => exact absurd rfl he
  | leave => exact absurd rfl hl
  | _ => exact ⟨rfl, rfl⟩

/-! ## What calls do to the keys -/

/-- What a call does to the keys of a cache whose entries do not expire. -/
inductive KeyChange (s : CacheSession) (call : CacheCall) : List String → Prop where
  | kept : s.used? call = none →
      KeyChange s call (s.cache.keys.filter fun k => !call.invalidates k)
  | used {key : String} : s.used? call = some key →
      (key ∈ s.cache.keys ∨ (s.cache.keys.length : Int) < s.cache.maxSize) →
      KeyChange s call ((s.cache.keys.filter fun k => !(k == key)) ++ [key])
  | replaced {key : String} : s.used? call = some key → key ∉ s.cache.keys →
      0 < s.cache.maxSize → s.cache.maxSize ≤ s.cache.keys.length →
      KeyChange s call (s.cache.keys.drop 1 ++ [key])

theorem KeyChange.same {call : CacheCall} (hu : s.used? call = none)
    (hi : ∀ k, call.invalidates k = false) : KeyChange s call s.cache.keys := by
  have hf : (s.cache.keys.filter fun k => !call.invalidates k) = s.cache.keys := by
    simp [hi]
  exact hf ▸ .kept hu

theorem KeyChange.stored {call : CacheCall} {c : Cache} (hc : c.keys = s.cache.keys)
    (hm : c.maxSize = s.cache.maxSize) (hp : 0 < s.cache.maxSize)
    (hu : s.used? call = some key) (shared : Shared) :
    KeyChange s call (c.store key shared).keys := by
  rcases keys_store c key shared with ⟨hr, hk⟩ | ⟨hn, hf, hk⟩
  · rw [hk, hc]
    rw [hc, hm] at hr
    exact .used hu hr
  · rw [hk, hc]
    rw [hc] at hn
    rw [hc, hm] at hf
    exact .replaced hu hn hp hf

theorem KeyChange.looked {call : CacheCall} {d : Cache} {found : Option Shared}
    (hu : s.cache.lifetime = .unlimited)
    (hl : s.cache.lookup key = (found, d)) (hf : s.used? call = found.map fun _ => key)
    (hi : ∀ k, call.invalidates k = false) : KeyChange s call d.keys := by
  rcases lookup_unlimited hu hl with ⟨rfl, -, he⟩ | ⟨e, hm, rfl, rfl, he⟩
  · have hs : d.keys = s.cache.keys := congrArg (List.map CacheEntry.key) he
    exact hs ▸ .same hf hi
  · have hs : d.keys = (s.cache.keys.filter fun k => !(k == e.key)) ++ [e.key] :=
      (congrArg (List.map CacheEntry.key) he).trans (keys_putLast _ _)
    exact hs ▸ .used hf (.inl (mem_keys_iff.mpr ⟨e, hm, rfl⟩))

theorem get_keyChange (hu : s.cache.lifetime = .unlimited) (r : Request) :
    KeyChange s (.get r) (s.call (.get r)).cache.keys := by
  cases hk : r.fingerprint with
  | error m =>
    have hn : s.used? (.get r) = none := by simp [used?, hit?, get_error hk]
    rw [call_get_error hk]
    exact .same hn fun _ => rfl
  | ok key =>
    rcases hl : s.cache.lookup key with ⟨found, d⟩
    have hh : s.used? (.get r) = found.map fun _ => key := hit?_lookup hk hl
    rw [call_get_ok hk, hl]
    exact .looked hu hl hh fun _ => rfl

theorem put_keyChange (r : Request) (shared : Shared) :
    KeyChange s (.put r shared) (s.call (.put r shared)).cache.keys := by
  by_cases hm : s.cache.maxSize ≤ 0
  · have hn : s.used? (.put r shared) = none := if_pos hm
    rw [call_put_of_disabled hm]
    exact .same hn fun _ => rfl
  · have hu : s.used? (.put r shared) = r.fingerprint.toOption := if_neg hm
    cases hk : r.fingerprint with
    | error m =>
      rw [hk] at hu
      rw [call_put_error hk]
      exact .same hu fun _ => rfl
    | ok key =>
      have hp : 0 < s.cache.maxSize := by omega
      rw [hk] at hu
      rw [call_put_ok hp hk]
      exact .stored rfl rfl hp hu shared

theorem compile_keyChange (hu : s.cache.lifetime = .unlimited) (r : Request) :
    KeyChange s (.compile r) (s.call (.compile r)).cache.keys := by
  generalize hx : s.cache.compile r = x
  have h := hx ▸ s.cache.compile_cases r
  have hc : (s.call (.compile r)).cache = x.2 := congrArg Prod.snd hx
  rw [hc]
  cases h with
  | keyless hk =>
    have hn : s.used? (.compile r) = none := by simp [used?, hx]
    exact .same hn fun _ => rfl
  | @found key shared d hk hl =>
    have hf : s.used? (.compile r) = some key := by simp [used?, hx, hit?_lookup hk hl]
    exact .looked hu hl hf fun _ => rfl
  | @refused key d e hk hl hr =>
    have hn : s.used? (.compile r) = none := by simp [used?, hx]
    have hd : d.countError.keys = d.keys := count_keys _
    exact hd ▸ .looked hu hl hn fun _ => rfl
  | @stored key d compiled hk hl hr =>
    have hm : d.maxSize = s.cache.maxSize := congrArg Prod.fst (lookup_settings hl)
    have hf : s.used? (.compile r) = s.cache.slot? r := by simp [used?, hx, hit?_lookup hk hl]
    by_cases hp : d.maxSize ≤ 0
    · have hn : s.used? (.compile r) = none := hf.trans (if_pos (hm ▸ hp))
      rw [if_pos hp]
      exact .looked (d := d) hu hl hn fun _ => rfl
    · have hs : s.used? (.compile r) = some key := by
        rw [hf, slot?, if_neg (hm ▸ hp), hk]
        rfl
      rw [if_neg hp]
      -- the look-up found nothing, so it has only counted
      have hkeys : d.keys = s.cache.keys := by
        rcases lookup_unlimited hu hl with ⟨-, -, he⟩ | ⟨e, -, -, hf, -⟩
        · exact congrArg (List.map CacheEntry.key) he
        · cases hf
      have hpos : 0 < s.cache.maxSize := by omega
      exact KeyChange.stored (c := { d with nextSerial := d.nextSerial + 1 }) hkeys hm hpos hs _

theorem keyChange (hu : s.cache.lifetime = .unlimited) (call : CacheCall) :
    KeyChange s call (s.call call).cache.keys := by
  cases call with
  | get r => exact get_keyChange hu r
  | put r shared => exact put_keyChange r shared
  | compile r => exact compile_keyChange hu r
  | invalidate r =>
    cases hk : r.fingerprint with
    | error m =>
      rw [call_invalidate_error hk]
      exact .same rfl fun k => by simp [CacheCall.invalidates, hk, Except.toOption]
    | ok key =>
      have hf : (s.call (.invalidate r)).cache.keys =
          s.cache.keys.filter fun k => !(CacheCall.invalidate r).invalidates k := by
        rw [call_invalidate_ok hk, keys_remove]
        refine List.filter_congr ?_
        intro k _
        simp [CacheCall.invalidates, hk, Except.toOption, eq_comm]
      exact hf ▸ .kept rfl
  | clear =>
    have hf : (s.call .clear).cache.keys =
        s.cache.keys.filter fun k => !CacheCall.clear.invalidates k := by
      simp [CacheSession.call, clear, keys, CacheCall.invalidates]
    exact hf ▸ .kept rfl
  | leave =>
    have hs : (s.call .leave).cache.keys = s.cache.keys := by
      rcases s with ⟨c, _ | ⟨size, saved⟩⟩ <;> rfl
    exact hs ▸ .same rfl fun _ => rfl
  | _ => exact .same rfl fun _ => rfl

/-! ## Runs -/

@[simp] theorem run_cons (s : CacheSession) (call : CacheCall) (rest : List CacheCall) :
    s.run (call :: rest) = (s.call call).run rest := rfl

theorem run_append (s : CacheSession) (calls more : List CacheCall) :
    s.run (calls ++ more) = (s.run calls).run more := List.foldl_append

theorem run_preserves {motive : CacheSession → Prop}
    (hcall : ∀ t call, motive t → motive (t.call call)) (h : motive s)
    (calls : List CacheCall) : motive (s.run calls) := by
  induction calls generalizing s with
  | nil => exact h
  | cons call rest ih => exact ih (hcall s call h)

theorem call_within {call : CacheCall} (hp : ∀ r shared, call ≠ .put r shared)
    (hc : ∀ r, call ≠ .compile r) : (s.call call).cache.Within s.cache := by
  cases call with
  | get r =>
    cases hk : r.fingerprint with
    | error m => exact call_get_error (s := s) hk ▸ .refl _
    | ok key => exact call_get_ok (s := s) hk ▸ lookup_within rfl
  | put r shared => exact absurd rfl (hp r shared)
  | compile r => exact absurd rfl (hc r)
  | invalidate r =>
    cases hk : r.fingerprint with
    | error m => exact call_invalidate_error (s := s) hk ▸ .refl _
    | ok key => exact call_invalidate_ok (s := s) hk ▸ remove_within _ key
  | clear => exact .of_subset (List.nil_subset _)
  | leave =>
    rcases s with ⟨c, _ | ⟨size, saved⟩⟩ <;> exact .refl c
  | _ => exact .refl s.cache

theorem call_settings_snd (s : CacheSession) (call : CacheCall) :
    (s.call call).cache.settings.2 = s.cache.settings.2 := by
  by_cases he : call = .enter
  · rw [he]
    rfl
  by_cases hl : call = .leave
  · rw [hl]
    rcases s with ⟨c, _ | ⟨size, saved⟩⟩ <;> rfl
  · exact congrArg Prod.snd (call_settings he hl).1

theorem run_settings_snd (s : CacheSession) (calls : List CacheCall) :
    (s.run calls).cache.settings.2 = s.cache.settings.2 :=
  run_preserves (motive := fun t => t.cache.settings.2 = s.cache.settings.2)
    (fun t call h => (call_settings_snd t call).trans h) rfl calls

theorem run_lifetime (s : CacheSession) (calls : List CacheCall) :
    (s.run calls).cache.lifetime = s.cache.lifetime := congrArg Prod.fst (run_settings_snd s calls)

theorem run_counting (s : CacheSession) (calls : List CacheCall) :
    (s.run calls).cache.counting = s.cache.counting := congrArg Prod.snd (run_settings_snd s calls)

end

/-- The sizes of the cache: none inside of blocks, and the chosen one outside. -/
def Sized (n : Nat) (s : CacheSession) : Prop :=
  ∃ depth, s.cache.maxSize :: s.saved = List.replicate depth 0 ++ [(n : Int)]

theorem Sized.after [CharacterNames] (h : Sized n s) (call : CacheCall) : Sized n
    (s.call call) := by
  obtain ⟨depth, hd⟩ := h
  by_cases he : call = .enter
  · subst he
    refine ⟨depth + 1, ?_⟩
    rw [List.replicate_succ, List.cons_append, ← hd]
    rfl
  by_cases hl : call = .leave
  · subst hl
    rcases s with ⟨c, _ | ⟨size, saved⟩⟩
    · exact ⟨depth, hd⟩
    · cases depth with
      | zero => exact absurd (congrArg List.length hd) (by simp)
      | succ depth => exact ⟨depth, (List.cons.inj hd).2⟩
  · obtain ⟨hsettings, hsaved⟩ := call_settings (s := s) he hl
    have hm : (s.call call).cache.maxSize = s.cache.maxSize := congrArg Prod.fst hsettings
    exact ⟨depth, by rw [hm, hsaved, hd]⟩

theorem Sized.maxSize_eq (h : Sized n s) :
    (s.saved = [] ∧ s.cache.maxSize = n) ∨ (s.saved ≠ [] ∧ s.cache.maxSize = 0) := by
  obtain ⟨depth, hd⟩ := h
  cases depth with
  | zero =>
    obtain ⟨hm, hs⟩ := List.cons.inj hd
    exact .inl ⟨hs, hm⟩
  | succ depth =>
    obtain ⟨hm, hs⟩ := List.cons.inj hd
    refine .inr ⟨?_, hm⟩
    rw [hs]
    simp

/-- A cache in use whose entries do not expire, of a chosen size. -/
structure Bounded (n : Nat) (s : CacheSession) : Prop where
  lifetime : s.cache.lifetime = .unlimited
  sized : Sized n s
  size : s.cache.keys.length ≤ n
  nodup : s.cache.keys.Nodup

theorem Bounded.start (n : Nat) (counting : Bool) :
    Bounded n (start (Cache.empty n .unlimited counting)) :=
  ⟨rfl, ⟨0, rfl⟩, Nat.zero_le n, List.nodup_nil⟩

theorem filter_append_nodup {keys : List String} (h : keys.Nodup) (key : String) :
    ((keys.filter fun k => !(k == key)) ++ [key]).Nodup := by
  refine List.Nodup.append (h.filter _) (List.nodup_singleton key) ?_
  intro k hk he
  obtain rfl := List.mem_singleton.mp he
  simp at hk

/-- A place is free for a key in a cache with room, and for one that is in the cache already. -/
theorem Bounded.room (h : Bounded n s) (hr : key ∈ s.cache.keys ∨
    (s.cache.keys.length : Int) < s.cache.maxSize) :
    ((s.cache.keys.filter fun k => !(k == key)) ++ [key]).length ≤ n := by
  have hs := h.size
  rw [List.length_append, List.length_singleton]
  rcases hr with hm | hl
  · have hlt : (s.cache.keys.filter fun k => !(k == key)).length < s.cache.keys.length :=
      List.length_filter_lt_length_iff_exists.mpr ⟨key, hm, by simp⟩
    omega
  · have hle := List.length_filter_le (fun k => !(k == key)) s.cache.keys
    rcases h.sized.maxSize_eq with ⟨-, hn⟩ | ⟨-, hn⟩ <;> omega

theorem Bounded.after [CharacterNames] (h : Bounded n s) (call : CacheCall) : Bounded n
    (s.call call) := by
  have hl := (run_lifetime s [call]).trans h.lifetime
  have hz := h.sized.after call
  suffices hk : (s.call call).cache.keys.length ≤ n ∧ (s.call call).cache.keys.Nodup from
    ⟨hl, hz, hk.1, hk.2⟩
  generalize hkeys : (s.call call).cache.keys = keys
  have hc := hkeys ▸ keyChange h.lifetime call
  cases hc with
  | kept => exact ⟨Nat.le_trans (List.length_filter_le _ _) h.size, h.nodup.filter _⟩
  | used _ hr => exact ⟨h.room hr, filter_append_nodup h.nodup _⟩
  | @replaced key _ hn hp hf =>
    have hs := h.size
    have hd : key ∉ s.cache.keys.drop 1 := fun hm => hn (List.mem_of_mem_drop hm)
    refine ⟨by simp; omega, List.Nodup.append ?_ (List.nodup_singleton key) ?_⟩
    · exact h.nodup.sublist (List.drop_sublist 1 _)
    · intro k hk he
      obtain rfl := List.mem_singleton.mp he
      exact hd hk

theorem Bounded.after_run [CharacterNames] (h : Bounded n s) (calls : List CacheCall) :
    Bounded n (s.run calls) := run_preserves (fun _ call h => h.after call) h calls

end CacheSession

end PathRouting.Pattern
