import PathRouting.Pattern.Request
import PathRouting.Proofs.Json.RoundTrip
import PathRouting.Proofs.Value.Sorting

/-!
# What the canonical text of a request tells

The canonical text of a request whose conditions and defaults have names tells the pattern and
the canonical form of what stands under each name, and nothing else. In particular the order of
the names is lost, and so is the order of the members of a set.
-/
namespace PathRouting

open Mapping Value

/-! ## Conditions and defaults as lists of names -/

/-- A value is absent, or a mapping of names to the values of some entries. No name is there
twice. -/
structure Value.Holds (v : Value) (entries : List (String × Value)) : Prop where
  eq : v = .null ∧ entries = [] ∨ v = .mapping (ofTexts id entries)
  distinct : (entries.map Prod.fst).Nodup

theorem Value.Holds.entriesOrNone {v : Value} {entries : List (String × Value)}
    (h : v.Holds entries) : v.entriesOrNone = .ok (ofTexts id entries) := by
  rcases h.eq with ⟨rfl, rfl⟩ | rfl
  · rfl
  · exact entriesOrNone_mapping _

theorem Value.Holds.toMapping {v : Value} {entries : List (String × Value)}
    (h : v.Holds entries) : v.toMapping = .ok (ofTexts id entries) := by
  rcases h.eq with ⟨rfl, rfl⟩ | rfl
  · rfl
  · cases entries <;> rfl

theorem Value.Holds.lookup_eq {es : Mapping Value} {entries : List (String × Value)}
    (h : (Value.mapping es).Holds entries) (name : String) :
    named? es name = entries.lookup name := by
  rcases h.eq with ⟨he, -⟩ | he
  · cases he
  · rw [Value.mapping.inj he, named?_ofTexts, Option.map_id, id]

namespace Pattern.Request

def textual (defaults : List (String × String)) : List (String × Value) :=
  defaults.map fun e => (e.1, .str e.2)

theorem mapValues_textual (defaults : List (String × String)) :
    mapValues Value.text (ofTexts id (textual defaults)) = ofTexts id defaults := by
  simp [mapValues, ofTexts, textual, Function.comp_def]

/-- A request with conditions under names, and with texts as defaults under names. -/
structure Named (r : Request) (conditions : List (String × Value))
    (defaults : List (String × String)) : Prop where
  conditions : r.conditions.Holds conditions
  defaults : r.defaults.Holds (textual defaults)

/-! ## Canonical documents -/

def canonicalEntries (entries : List (String × Value)) : List (String × Json) :=
  entries.map fun e => (e.1, canonicalValue e.2)

theorem canonicalEntries_names (entries : List (String × Value)) :
    (canonicalEntries entries).map Prod.fst = entries.map Prod.fst := by
  simp [canonicalEntries]

theorem canonicalEntries_increasing {entries : List (String × Value)} (h : Increasing entries) :
    Increasing (canonicalEntries entries) := by
  rw [Increasing, canonicalEntries, List.pairwise_map]
  exact h

theorem members_ofTexts {α : Type} (f : α → Json) (entries : List (String × α)) :
    Json.members (mapValues f (ofTexts id entries)) = .ok (entries.map fun e => (e.1, f e.2)) := by
  induction entries with
  | nil => rfl
  | cons e entries ih =>
    have hc : mapValues f (ofTexts id (e :: entries)) =
        (.str e.1, f e.2) :: mapValues f (ofTexts id entries) := rfl
    rw [hc, Json.members, ih]
    rfl

theorem canonicalMapping_named {entries : List (String × Value)}
    (hn : (entries.map Prod.fst).Nodup) : ∃ sorted : List (String × Value),
      canonicalMapping (.mapping (ofTexts id entries)) = .ok (.obj (canonicalEntries sorted)) ∧
        sorted.Perm entries ∧ Increasing sorted := by
  obtain ⟨sorted, hsorted, hperm, hs⟩ := sortEntries_texts hn
  refine ⟨sorted, ?_, hperm, hs⟩
  have hentries := Value.Holds.entriesOrNone ⟨.inr rfl, hn⟩
  rw [canonicalMapping, hentries]
  simp only [bind, Except.bind, hsorted, members_ofTexts]
  rfl

def document (source : String) (conditions defaults : List (String × Value)) : Json :=
  .obj [("conditions", .obj (canonicalEntries conditions)),
    ("defaults", .obj (canonicalEntries defaults)), ("pattern", .str source)]

theorem canonicalValue_textual (v : Value) : (canonicalValue v).Textual := by
  have hset : ∀ texts : List String, (Json.obj [("set", .arr (texts.map .str))]).Textual := by
    intro texts
    refine .obj (by simp) fun m hm => ?_
    obtain rfl := List.mem_singleton.mp hm
    exact .texts texts
  have hlist : ∀ xs : List Value, (Json.arr (xs.map fun x => .str x.text)).Textual := by
    intro xs
    have h := Json.Textual.texts (xs.map Value.text)
    rwa [List.map_map] at h
  cases v with
  | set xs => exact hset _
  | frozenSet xs => exact hset _
  | list xs => exact hlist xs
  | tuple xs => exact hlist xs
  | _ => exact .str _

theorem canonicalEntries_textual {entries : List (String × Value)}
    (hn : (entries.map Prod.fst).Nodup) : (Json.obj (canonicalEntries entries)).Textual := by
  refine .obj (canonicalEntries_names entries ▸ hn) fun m hm => ?_
  obtain ⟨e, -, rfl⟩ := List.mem_map.mp hm
  exact canonicalValue_textual e.2

theorem document_textual {source : String} {conditions defaults : List (String × Value)}
    (hc : (conditions.map Prod.fst).Nodup) (hd : (defaults.map Prod.fst).Nodup) :
    (document source conditions defaults).Textual := by
  refine .obj (by simp) fun m hm => ?_
  simp only [List.mem_cons, List.not_mem_nil, or_false] at hm
  rcases hm with rfl | rfl | rfl
  · exact canonicalEntries_textual hc
  · exact canonicalEntries_textual hd
  · exact .str source

variable {r r' : Request} {conditions conditions' : List (String × Value)}
  {defaults defaults' : List (String × String)}

theorem canonicalText_of_holds {values : List (String × Value)}
    (hconditions : r.conditions.Holds conditions) (hdefaults : r.defaults.Holds values) :
    ∃ cs ds : List (String × Value), cs.Perm conditions ∧ Increasing cs ∧
      ds.Perm values ∧ Increasing ds ∧
      r.canonicalText = .ok ((document r.source cs ds).text .oneLine) := by
  obtain ⟨cs, hcs, hcperm, hc⟩ := canonicalMapping_named hconditions.distinct
  obtain ⟨ds, hds, hdperm, hd⟩ := canonicalMapping_named hdefaults.distinct
  refine ⟨cs, ds, hcperm, hc, hdperm, hd, ?_⟩
  have hcanonical : r.canonical = .ok (document r.source cs ds) := by
    rw [canonical, hconditions.entriesOrNone, hdefaults.entriesOrNone]
    simp only [bind, Except.bind, hcs, hds]
    rfl
  rw [Request.canonicalText, hcanonical]
  rfl

/-- A request whose conditions and defaults, of any kind, stand under names. -/
structure Keyed (r : Request) : Prop where
  conditions : ∃ entries, r.conditions.Holds entries
  defaults : ∃ entries, r.defaults.Holds entries

theorem Keyed.fingerprint (h : r.Keyed) : ∃ key, r.fingerprint = .ok key := by
  obtain ⟨conditions, hconditions⟩ := h.conditions
  obtain ⟨values, hdefaults⟩ := h.defaults
  obtain ⟨cs, ds, -, -, -, -, ht⟩ := canonicalText_of_holds hconditions hdefaults
  exact ⟨_, by rw [Request.fingerprint, ht]; rfl⟩

theorem Named.fingerprint (h : r.Named conditions defaults) : ∃ key, r.fingerprint = .ok key :=
  Keyed.fingerprint ⟨⟨_, h.conditions⟩, ⟨_, h.defaults⟩⟩

/-! ## Requests with the same canonical text -/

theorem canonicalEntries_lookup {sorted entries : List (String × Value)}
    (hn : (entries.map Prod.fst).Nodup) (h : sorted.Perm entries) (name : String) :
    (canonicalEntries sorted).lookup name = (entries.lookup name).map canonicalValue := by
  have hs : (sorted.map Prod.fst).Nodup := (h.map Prod.fst).nodup_iff.mpr hn
  rw [canonicalEntries, lookup_map, lookup_perm hs h]

/-- Entries in order have the same canonical form as soon as they have it under every name. -/
theorem canonicalEntries_eq_iff {xs ys sorted sorted' : List (String × Value)}
    (hx : (xs.map Prod.fst).Nodup) (hy : (ys.map Prod.fst).Nodup) (hp : sorted.Perm xs)
    (hp' : sorted'.Perm ys) (hs : Increasing sorted) (hs' : Increasing sorted') :
    canonicalEntries sorted = canonicalEntries sorted' ↔ ∀ name,
      (xs.lookup name).map canonicalValue = (ys.lookup name).map canonicalValue := by
  constructor
  · intro h name
    rw [← canonicalEntries_lookup hx hp, h, canonicalEntries_lookup hy hp']
  · intro h
    have hn : ((canonicalEntries sorted).map Prod.fst).Nodup := by
      rw [canonicalEntries_names]
      exact (hp.map Prod.fst).nodup_iff.mpr hx
    have hn' : ((canonicalEntries sorted').map Prod.fst).Nodup := by
      rw [canonicalEntries_names]
      exact (hp'.map Prod.fst).nodup_iff.mpr hy
    refine (canonicalEntries_increasing hs).unique (canonicalEntries_increasing hs') ?_
    refine perm_of_lookup hn hn' fun name => ?_
    rw [canonicalEntries_lookup hx hp, canonicalEntries_lookup hy hp', h name]

theorem document_eq_iff {source source' : String} {cs cs' ds ds' : List (String × Value)} :
    document source cs ds = document source' cs' ds' ↔ source = source' ∧
      canonicalEntries cs = canonicalEntries cs' ∧ canonicalEntries ds = canonicalEntries ds' := by
  simp only [document, Json.obj.injEq, List.cons.injEq, Prod.mk.injEq, Json.str.injEq, true_and,
    and_true]
  constructor
  · rintro ⟨hc, hd, hs⟩
    exact ⟨hs, hc, hd⟩
  · rintro ⟨hs, hc, hd⟩
    exact ⟨hc, hd, hs⟩

/-- Two requests have the same canonical text if and only if they have the same pattern, the same
defaults, and conditions of the same canonical form under every name. -/
theorem Named.canonicalText_eq_iff (h : r.Named conditions defaults)
    (h' : r'.Named conditions' defaults') : r.canonicalText = r'.canonicalText ↔
      r.source = r'.source ∧
      (∀ name, (conditions.lookup name).map canonicalValue =
        (conditions'.lookup name).map canonicalValue) ∧
      ∀ name, defaults.lookup name = defaults'.lookup name := by
  obtain ⟨cs, ds, hc, hcs, hd, hds, ht⟩ := canonicalText_of_holds h.conditions h.defaults
  obtain ⟨cs', ds', hc', hcs', hd', hds', ht'⟩ :=
    canonicalText_of_holds h'.conditions h'.defaults
  have hnodup : ∀ {sorted entries : List (String × Value)}, sorted.Perm entries →
      (entries.map Prod.fst).Nodup → (sorted.map Prod.fst).Nodup := fun hp hn =>
    (hp.map Prod.fst).nodup_iff.mpr hn
  have hdocument : r.canonicalText = r'.canonicalText ↔
      document r.source cs ds = document r'.source cs' ds' := by
    rw [ht, ht']
    constructor
    · intro heq
      exact Json.text_injective
        (document_textual (hnodup hc h.conditions.distinct) (hnodup hd h.defaults.distinct))
        (document_textual (hnodup hc' h'.conditions.distinct) (hnodup hd' h'.defaults.distinct))
        (Except.ok.inj heq)
    · intro heq
      rw [heq]
  have hdefaults : (∀ name, ((textual defaults).lookup name).map canonicalValue =
      ((textual defaults').lookup name).map canonicalValue) ↔
      ∀ name, defaults.lookup name = defaults'.lookup name := by
    refine forall_congr' fun name => ?_
    rw [textual, textual, lookup_map, lookup_map, Option.map_map, Option.map_map]
    refine (Option.map_injective fun s t hst => ?_).eq_iff
    exact Json.str.inj hst
  rw [hdocument, document_eq_iff,
    canonicalEntries_eq_iff h.conditions.distinct h'.conditions.distinct hc hc' hcs hcs',
    canonicalEntries_eq_iff h.defaults.distinct h'.defaults.distinct hd hd' hds hds', hdefaults]

end Pattern.Request

end PathRouting
