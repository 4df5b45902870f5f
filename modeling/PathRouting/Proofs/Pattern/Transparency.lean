import PathRouting.Proofs.Pattern.Congruence
import PathRouting.Proofs.Pattern.Recency

/-!
# Caches that cannot be noticed

Every entry was compiled for some request with its fingerprint. So whatever was done to a cache
before, a request gets from it what it would be compiled to, as long as requests with one
fingerprint compile alike.
-/
namespace PathRouting.Pattern

open Mapping Request

/-! ## Entries and the requests they were made for -/

namespace Cache

variable {asked : Request → Prop} {c d : Cache} {r : Request} {shared : Shared}

section

variable [CharacterNames]

/-- Every entry is what some request that was asked for compiles to. -/
def Sound (asked : Request → Prop) (c : Cache) : Prop :=
  ∀ e ∈ c.entries, ∃ r, asked r ∧ r.fingerprint = .ok e.key ∧ r.compile = .ok e.shared.compiled

theorem Sound.empty (asked : Request → Prop) (maxSize : Int) (lifetime : Lifetime)
    (counting : Bool) : Sound asked (Cache.empty maxSize lifetime counting) := nofun

theorem Sound.within (h : Sound asked c) (hw : d.Within c) : Sound asked d := by
  intro e he
  obtain ⟨old, hold, hkey, hshared, -⟩ := hw e he
  obtain ⟨r, hr, hf, hc⟩ := h old hold
  exact ⟨r, hr, hkey ▸ hf, hshared ▸ hc⟩

end

theorem mem_store {key : String} {e : CacheEntry} (h : e ∈ (c.store key shared).entries) :
    e ∈ c.entries ∨ e = ⟨key, shared, 0, c.now⟩ := by
  unfold store at h
  split at h
  · rcases mem_putLast h with he | ⟨-, he⟩
    · exact .inr he
    · rw [countEviction, count_entries] at he
      exact .inl (List.mem_of_mem_drop he)
  · rcases mem_putLast h with he | ⟨-, he⟩
    · exact .inr he
    · exact .inl he

variable [CharacterNames]

theorem Sound.compile (h : Sound asked c) (hr : asked r) : Sound asked (c.compile r).2 := by
  generalize hx : c.compile r = x
  have hc := hx ▸ c.compile_cases r
  cases hc with
  | keyless _ => exact h
  | found _ hl => exact h.within (lookup_within hl)
  | refused _ hl _ =>
    intro e he
    rw [countError, count_entries] at he
    exact h.within (lookup_within hl) e he
  | @stored key d compiled hk hl hcompile =>
    have hd : Sound asked d := h.within (lookup_within hl)
    dsimp only
    split
    · exact hd
    · intro e he
      rcases mem_store he with he | rfl
      · exact hd e he
      · exact ⟨r, hr, hk, hcompile⟩

theorem Sound.lookup {key : String} (h : Sound asked c) (hk : r.fingerprint = .ok key)
    (hsame : ∀ r', asked r' → r'.fingerprint = r.fingerprint → Agree r'.compile r.compile)
    (hl : c.lookup key = (some shared, d)) : Agree (.ok shared.compiled) r.compile := by
  obtain ⟨e, he, hkey, rfl, -⟩ := lookup_found hl
  obtain ⟨r', hr', hf, hcompile⟩ := h e he
  have hagree := hsame r' hr' (by rw [hf, hk, hkey])
  rwa [hcompile] at hagree

theorem Sound.compile_agree (h : Sound asked c) (hf : ∃ key, r.fingerprint = .ok key)
    (hsame : ∀ r', asked r' → r'.fingerprint = r.fingerprint → Agree r'.compile r.compile) :
    Agree ((c.compile r).1.map Shared.compiled) r.compile := by
  obtain ⟨key, hkey⟩ := hf
  generalize hx : c.compile r = x
  have hc := hx ▸ c.compile_cases r
  cases hc with
  | keyless hk => rw [hkey] at hk; cases hk
  | found hk hl => exact h.lookup hk hsame hl
  | refused _ _ hcompile => exact hcompile ▸ .refl _
  | stored _ _ hcompile => exact hcompile ▸ .refl _

theorem Sound.get_agree (h : Sound asked c)
    (hsame : ∀ r', asked r' → r'.fingerprint = r.fingerprint → Agree r'.compile r.compile)
    (hg : (c.get r).1 = .ok (some shared)) : Agree (.ok shared.compiled) r.compile := by
  cases hk : r.fingerprint with
  | error m => rw [get_error hk] at hg; cases hg
  | ok key =>
    rw [get_ok hk] at hg
    have hl : c.lookup key = (some shared, (c.lookup key).2) := by rw [← Except.ok.inj hg]
    exact h.lookup hk hsame hl

/-- A request with the key of another one is a hit if that one is, and gives the same pattern. -/
theorem hit_of_fingerprint_eq {r' : Request} (hf : r.fingerprint = r'.fingerprint)
    (hg : (c.get r').1 = .ok (some shared)) :
    (c.get r).1 = .ok (some shared) ∧ (c.compile r).1 = .ok shared := by
  have hsame : c.get r = c.get r' := by rw [get, get, hf]
  refine ⟨hsame ▸ hg, ?_⟩
  rw [← hsame] at hg
  rcases hc : c.get r with ⟨found, d⟩
  rw [hc] at hg
  obtain rfl : found = .ok (some shared) := hg
  rw [Cache.compile, hc]

end Cache

/-! ## Requests that differ in their order -/

/-- Values that differ in the order of the members of a set at most. -/
inductive SameMembers : Value → Value → Prop where
  | refl (v : Value) : SameMembers v v
  | set {xs ys : List Value} : xs.Perm ys → SameMembers (.set xs) (.set ys)
  | frozenSet {xs ys : List Value} : xs.Perm ys → SameMembers (.frozenSet xs) (.frozenSet ys)

/-- Values that differ, if they are mappings, in the order of their entries and of the members of
sets among these. -/
inductive Rearranged : Value → Value → Prop where
  | refl (v : Value) : Rearranged v v
  | mapping {es others es' : Mapping Value} : es.Perm others →
      List.Forall₂ (fun e e' => e.1 = e'.1 ∧ SameMembers e.2 e'.2) others es' →
      Rearranged (.mapping es) (.mapping es')

/-- Requests that differ in the order of entries and of the members of sets at most. -/
structure Request.Rearranged (r r' : Request) : Prop where
  source : r.source = r'.source
  conditions : Pattern.Rearranged r.conditions r'.conditions
  defaults : Pattern.Rearranged r.defaults r'.defaults

theorem canonicalValue_sameMembers {v w : Value} (h : SameMembers v w) :
    canonicalValue v = canonicalValue w := by
  have hsort : ∀ {xs ys : List Value}, xs.Perm ys →
      (xs.map Value.text).mergeSort (fun a b => decide (a ≤ b)) =
        (ys.map Value.text).mergeSort fun a b => decide (a ≤ b) := by
    intro xs ys hp
    have hs : ∀ texts : List String,
        (texts.mergeSort fun a b => decide (a ≤ b)).Pairwise fun a b => decide (a ≤ b) = true :=
      List.pairwise_mergeSort
        (fun a b c hab hbc => decide_eq_true
          (String.le_trans (of_decide_eq_true hab) (of_decide_eq_true hbc)))
        (fun a b => by simpa using String.le_total a b)
    refine List.Perm.eq_of_pairwise (fun a b _ _ hab hba => ?_) (hs _) (hs _) ?_
    · exact String.le_antisymm (of_decide_eq_true hab) (of_decide_eq_true hba)
    · exact (List.mergeSort_perm _ _).trans ((hp.map _).trans (List.mergeSort_perm _ _).symm)
  cases h with
  | refl v => rfl
  | set hp => simp only [canonicalValue, hsort hp]
  | frozenSet hp => simp only [canonicalValue, hsort hp]

theorem exists_of_forall₂ {α β : Type} {related : α → β → Prop} {xs : List α} {ys : List β}
    (h : List.Forall₂ related xs ys) {x : α} (hx : x ∈ xs) : ∃ y ∈ ys, related x y := by
  induction h with
  | nil => cases hx
  | cons hab _ ih =>
    rcases List.mem_cons.mp hx with rfl | hx
    · exact ⟨_, List.mem_cons_self .., hab⟩
    · obtain ⟨y, hy, hxy⟩ := ih hx
      exact ⟨y, List.mem_cons_of_mem _ hy, hxy⟩

theorem mem_ofTexts {entries : List (String × Value)} {name : String} {v : Value} :
    ((.str name, v) : Value × Value) ∈ ofTexts id entries ↔ (name, v) ∈ entries := by
  constructor
  · intro h
    obtain ⟨e, he, heq⟩ := List.mem_map.mp h
    obtain ⟨hname, rfl⟩ := Prod.mk.inj heq
    obtain rfl := Value.str.inj hname
    exact he
  · intro h
    exact List.mem_map.mpr ⟨_, h, rfl⟩

theorem Rearranged.lookup {v w : Value} {entries entries' : List (String × Value)}
    (h : Rearranged v w) (hv : v.Holds entries) (hw : w.Holds entries') (name : String) :
    (entries.lookup name).map canonicalValue = (entries'.lookup name).map canonicalValue := by
  cases h with
  | refl v =>
    have heq : ofTexts id entries = ofTexts id entries' :=
      Except.ok.inj (hv.entriesOrNone.symm.trans hw.entriesOrNone)
    have hname := congrArg (fun m => named? m name) heq
    rw [named?_ofTexts, named?_ofTexts, Option.map_id] at hname
    exact congrArg (Option.map canonicalValue) hname
  | @mapping es others es' hp hr =>
    obtain rfl : es = ofTexts id entries := by
      rcases hv.eq with ⟨hn, -⟩ | hm
      · cases hn
      · exact Value.mapping.inj hm
    obtain rfl : es' = ofTexts id entries' := by
      rcases hw.eq with ⟨hn, -⟩ | hm
      · cases hn
      · exact Value.mapping.inj hm
    have hleft : ∀ x, (name, x) ∈ entries → ∃ y, (name, y) ∈ entries' ∧ SameMembers x y := by
      intro x hx
      obtain ⟨⟨key, y⟩, hy, hkey, hxy⟩ := exists_of_forall₂ hr (hp.mem_iff.mp (mem_ofTexts.mpr hx))
      obtain rfl : Value.str name = key := hkey
      exact ⟨y, mem_ofTexts.mp hy, hxy⟩
    have hright : ∀ y, (name, y) ∈ entries' → ∃ x, (name, x) ∈ entries ∧ SameMembers x y := by
      intro y hy
      obtain ⟨⟨key, x⟩, hx, hkey, hxy⟩ := exists_of_forall₂ hr.flip (mem_ofTexts.mpr hy)
      obtain rfl : key = Value.str name := hkey
      exact ⟨x, mem_ofTexts.mp (hp.mem_iff.mpr hx), hxy⟩
    cases hx : entries.lookup name with
    | some x =>
      obtain ⟨y, hy, hxy⟩ := hleft x ((lookup_eq_some_iff hv.distinct).mp hx)
      rw [(lookup_eq_some_iff hw.distinct).mpr hy]
      exact congrArg some (canonicalValue_sameMembers hxy)
    | none =>
      cases hy : entries'.lookup name with
      | none => rfl
      | some y =>
        obtain ⟨x, hm, -⟩ := hright y ((lookup_eq_some_iff hw.distinct).mp hy)
        rw [(lookup_eq_some_iff hv.distinct).mpr hm] at hx
        cases hx

/-! ## Requests with texts and collections as conditions -/

def isTextOrCollection : Value → Bool
  | .str _ | .list _ | .tuple _ | .set _ | .frozenSet _ => true
  | _ => false

/-- The kind of a text or collection that has a canonical form. -/
def kindOfCanonical : Json → String
  | .str _ => "str"
  | .arr _ => "list"
  | _ => "set"

theorem conditionKind_eq {v : Value} (h : isTextOrCollection v = true) :
    conditionKind v = kindOfCanonical (canonicalValue v) := by
  cases v <;> first | rfl | cases h

/-- A request with texts and collections as conditions, and with texts as defaults, all of them
under names. -/
def Request.Plain (r : Request) : Prop :=
  ∃ conditions defaults, r.Named conditions defaults ∧
    ∀ e ∈ conditions, isTextOrCollection e.2 = true

namespace Request.Plain

variable {r r' : Request}

theorem fingerprint (h : r.Plain) : ∃ key, r.fingerprint = .ok key := by
  obtain ⟨conditions, defaults, hn, -⟩ := h
  exact hn.fingerprint

theorem agree [CharacterNames] (h : r.Plain) (h' : r'.Plain)
    (ht : r.canonicalText = r'.canonicalText) : Agree r.compile r'.compile := by
  obtain ⟨conditions, defaults, hn, hc⟩ := h
  obtain ⟨conditions', defaults', hn', hc'⟩ := h'
  refine hn.agree hn' ht fun _ _ name _ v w hv hw hvw => ?_
  have hmem := (lookup_eq_some_iff hn.conditions.distinct).mp hv
  have hmem' := (lookup_eq_some_iff hn'.conditions.distinct).mp hw
  rw [conditionKind_eq (hc _ hmem), conditionKind_eq (hc' _ hmem'), hvw]

theorem canonicalText_rearranged (h : r.Plain) (h' : r'.Plain) (hr : r.Rearranged r') :
    r.canonicalText = r'.canonicalText := by
  obtain ⟨conditions, defaults, hn, -⟩ := h
  obtain ⟨conditions', defaults', hn', -⟩ := h'
  have hdefaults : ∀ name, defaults.lookup name = defaults'.lookup name := by
    intro name
    have hname := hr.defaults.lookup hn.defaults hn'.defaults name
    rw [textual, textual, lookup_map, lookup_map, Option.map_map, Option.map_map] at hname
    exact Option.map_injective (fun s t hst => Json.str.inj hst) hname
  exact (hn.canonicalText_eq_iff hn').mpr
    ⟨hr.source, hr.conditions.lookup hn.conditions hn'.conditions, hdefaults⟩

theorem fingerprint_rearranged (h : r.Plain) (h' : r'.Plain) (hr : r.Rearranged r') :
    r.fingerprint = r'.fingerprint := by
  rw [Request.fingerprint, Request.fingerprint, h.canonicalText_rearranged h' hr]

end Request.Plain

/-! ## Whole runs -/

namespace CacheSession

variable {s : CacheSession} {asked : Request → Prop}

section

variable [CharacterNames]

theorem sound_after (h : Cache.Sound asked s.cache) {call : CacheCall}
    (hp : ∀ r shared, call ≠ .put r shared) (hc : ∀ r, call = .compile r → asked r) :
    Cache.Sound asked (s.call call).cache := by
  by_cases hcompile : ∃ r, call = .compile r
  · obtain ⟨r, rfl⟩ := hcompile
    exact h.compile (hc r rfl)
  · exact h.within (call_within hp fun r he => hcompile ⟨r, he⟩)

theorem sound_after_run (h : Cache.Sound asked s.cache) {calls : List CacheCall}
    (hp : ∀ r shared, .put r shared ∉ calls) (hc : ∀ r, .compile r ∈ calls → asked r) :
    Cache.Sound asked (s.run calls).cache := by
  induction calls generalizing s with
  | nil => exact h
  | cons call rest ih =>
    have hcall : Cache.Sound asked (s.call call).cache :=
      sound_after h (fun r shared he => hp r shared (by simp [he])) fun r he => hc r (by simp [he])
    exact ih hcall (fun r shared hm => hp r shared (List.mem_cons_of_mem _ hm))
      fun r hm => hc r (List.mem_cons_of_mem _ hm)

/-- What is true of the answers of a cache, for every call among some. -/
structure Transparent (first : CacheSession) (calls : List CacheCall) : Prop where
  /-- A request fails as it fails without a cache, or gives what it gives without one. -/
  compiled : ∀ {earlier r later}, calls = earlier ++ .compile r :: later →
    Agree (((first.run earlier).cache.compile r).1.map Shared.compiled) r.compile
  /-- What is found is what the request compiles to. -/
  found : ∀ {earlier r later shared}, calls = earlier ++ .get r :: later →
    ((first.run earlier).cache.get r).1 = .ok (some shared) →
      Agree (.ok shared.compiled) r.compile
  /-- Where one request is found, another one that differs in its order at most is found too, and
  gives the very same pattern. -/
  rearranged : ∀ {earlier later r r' shared}, calls = earlier ++ later → r.Plain → r'.Plain →
    r.Rearranged r' → ((first.run earlier).cache.get r').1 = .ok (some shared) →
      ((first.run earlier).cache.get r).1 = .ok (some shared) ∧
        ((first.run earlier).cache.compile r).1 = .ok shared

/-- A cache cannot be noticed, whatever is done to it, as long as different canonical texts of
requests have different fingerprints. -/
theorem run_transparent (maxSize : Int) (lifetime : Lifetime) (counting : Bool)
    {calls : List CacheCall} (hput : ∀ r shared, .put r shared ∉ calls)
    (hplain : ∀ call ∈ calls, ∀ r ∈ call.request?, r.Plain)
    (hcollision : ∀ call ∈ calls, ∀ call' ∈ calls, ∀ r ∈ call.request?, ∀ r' ∈ call'.request?,
      r.fingerprint = r'.fingerprint → r.canonicalText = r'.canonicalText) :
    Transparent (start (Cache.empty maxSize lifetime counting)) calls := by
  generalize hfirst : start (Cache.empty maxSize lifetime counting) = first
  have hempty : ∀ asked, Cache.Sound asked first.cache := fun asked =>
    hfirst ▸ Cache.Sound.empty asked maxSize lifetime counting
  -- the invariant is about all requests of the run, so that it serves every part of it
  have hsound : ∀ {earlier later}, calls = earlier ++ later →
      Cache.Sound (fun r => .compile r ∈ calls) (first.run earlier).cache := by
    rintro earlier later rfl
    exact sound_after_run (hempty _)
      (fun r shared hm => hput r shared (List.mem_append_left _ hm))
      fun r hm => List.mem_append_left _ hm
  have hsame : ∀ {call r}, call ∈ calls → call.request? = some r → ∀ r', .compile r' ∈ calls →
      r'.fingerprint = r.fingerprint → Agree r'.compile r.compile := by
    intro call r hcall hr r' hr' hf
    exact (hplain _ hr' r' rfl).agree (hplain call hcall r hr)
      (hcollision _ hr' call hcall r' rfl r hr hf)
  constructor
  case compiled =>
    intro earlier r later heq
    have hmem : .compile r ∈ calls := by simp [heq]
    exact (hsound heq).compile_agree (hplain _ hmem r rfl).fingerprint (hsame hmem rfl)
  case found =>
    intro earlier r later shared heq hg
    have hmem : .get r ∈ calls := by simp [heq]
    exact (hsound heq).get_agree (hsame hmem rfl) hg
  case rearranged =>
    intro earlier later r r' shared _ hr hr' hrearranged hg
    exact Cache.hit_of_fingerprint_eq (hr.fingerprint_rearranged hr' hrearranged) hg

end

/-- The entries of one mapping in two orders, another request in a block between, and some time
that passes. -/
theorem run_transparent_rearranged : ∃ r r' other shared,
    Transparent (start (Cache.empty 2 (.limited 5) true))
      [.compile r, .enter, .compile other, .leave, .wait 3, .compile r'] ∧
    r.conditions = .mapping [(.str "x", .list [.str "a", .int 1]), (.str "y", .str "c+")] ∧
    r'.conditions = .mapping [(.str "y", .str "c+"), (.str "x", .list [.str "a", .int 1])] ∧
    (((start (Cache.empty 2 (.limited 5) true)).run
      [.compile r, .enter, .compile other, .leave, .wait 3]).cache.compile r').1 = .ok shared ∧
    (((start (Cache.empty 2 (.limited 5) true)).run
      [.compile r, .enter, .compile other, .leave, .wait 3]).cache.get r).1 =
        .ok (some shared) := by
  obtain ⟨r, hr⟩ : ∃ r : Request, r = ⟨"/<x>-<y>", .mapping
    [(.str "x", .list [.str "a", .int 1]), (.str "y", .str "c+")], .null⟩ := ⟨_, rfl⟩
  obtain ⟨r', hr'⟩ : ∃ r : Request, r = ⟨"/<x>-<y>", .mapping
    [(.str "y", .str "c+"), (.str "x", .list [.str "a", .int 1])], .null⟩ := ⟨_, rfl⟩
  obtain ⟨other, hother⟩ : ∃ r : Request, r = ⟨"/<x>-<y>", .null,
    .mapping [(.str "y", .str "d")]⟩ := ⟨_, rfl⟩
  have hplain : r.Plain := hr ▸ ⟨[("x", .list [.str "a", .int 1]), ("y", .str "c+")], [],
    ⟨⟨.inr rfl, by decide⟩, ⟨.inl ⟨rfl, rfl⟩, by decide⟩⟩, by decide⟩
  have hplain' : r'.Plain := hr' ▸ ⟨[("y", .str "c+"), ("x", .list [.str "a", .int 1])], [],
    ⟨⟨.inr rfl, by decide⟩, ⟨.inl ⟨rfl, rfl⟩, by decide⟩⟩, by decide⟩
  have hplainOther : other.Plain := hother ▸ ⟨[], [("y", "d")],
    ⟨⟨.inl ⟨rfl, rfl⟩, by decide⟩, ⟨.inr rfl, by decide⟩⟩, by decide⟩
  have hrearranged : r'.Rearranged r := by
    rw [hr, hr']
    exact ⟨rfl, .mapping (.swap ..) (.cons ⟨rfl, .refl _⟩ (.cons ⟨rfl, .refl _⟩ .nil)), .refl _⟩
  have hsame : r'.canonicalText = r.canonicalText :=
    hplain'.canonicalText_rearranged hplain hrearranged
  have hdiffer : r.fingerprint ≠ other.fingerprint := by
    rw [hr, hother]
    decide +kernel
  have hdiffer' : r'.fingerprint ≠ other.fingerprint := by
    rwa [hplain'.fingerprint_rearranged hplain hrearranged]
  have htransparent : Transparent (start (Cache.empty 2 (.limited 5) true))
      [.compile r, .enter, .compile other, .leave, .wait 3, .compile r'] := by
    refine run_transparent 2 (.limited 5) true (by simp) ?_ ?_
    · simp [CacheCall.request?, hplain, hplain', hplainOther]
    · simp [CacheCall.request?, hsame, hdiffer, hdiffer', hdiffer.symm, hdiffer'.symm]
  have hfound : (((start (Cache.empty 2 (.limited 5) true)).run
      [.compile r, .enter, .compile other, .leave, .wait 3]).cache.get r).1.toOption.join.isSome =
        true := by
    rw [hr, hother]
    decide +kernel
  generalize hg : (Cache.get _ r).1 = result at hfound
  rcases result with _ | _ | shared
  · cases hfound
  · cases hfound
  · have hsplit : [CacheCall.compile r, .enter, .compile other, .leave, .wait 3, .compile r'] =
        [.compile r, .enter, .compile other, .leave, .wait 3] ++ [.compile r'] := rfl
    obtain ⟨-, hc⟩ := htransparent.rearranged hsplit hplain' hplain hrearranged hg
    exact ⟨r, r', other, shared, htransparent, congrArg Request.conditions hr,
      congrArg Request.conditions hr', hc, hg⟩

/-- A truth value as a key has the fingerprint of its text, but is not the name of a parameter. -/
theorem run_transparent_keyed_otherwise :
    let c := ((Cache.empty 8 .unlimited true).compile
      ⟨"/<true>", .mapping [(.str "true", .str "a")], .null⟩).2
    let r : Request := ⟨"/<true>", .mapping [(.bool true, .str "a")], .null⟩
    (c.compile r).1.toOption.map (fun shared => shared.compiled.matcher.source) =
      some "^/(a)$" ∧
    r.compile.toOption.map (fun compiled => compiled.matcher.source) =
      some "^/([A-Za-z0-9_\\-]+)$" := by
  decide +kernel

end CacheSession

end PathRouting.Pattern
