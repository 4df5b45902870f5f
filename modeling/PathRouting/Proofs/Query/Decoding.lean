import PathRouting.Proofs.Value.TextKeys
import PathRouting.Query.Codec

/-!
# What a query string says

Of several fields with one name the first one counts, so no name is told twice.
-/
namespace PathRouting

namespace Query

variable {kept : List (String × String)} {name : String}

theorem lookup_keepFirst (kept fields : List (String × String)) (name : String) :
    (keepFirst kept fields).lookup name = (kept.lookup name).or (fields.lookup name) := by
  induction fields generalizing kept with
  | nil => exact Option.or_none.symm
  | cons field fields ih =>
    obtain ⟨other, value⟩ := field
    rw [keepFirst]
    split
    · rename_i hold
      rw [ih]
      by_cases hn : name = other
      · obtain ⟨e, he, hname⟩ := List.any_eq_true.mp hold
        have hsome : (kept.lookup name).isSome = true := by
          rw [List.lookup_isSome_iff]
          exact ⟨e, he, beq_iff_eq.mpr (hn.trans (beq_iff_eq.mp hname).symm)⟩
        obtain ⟨first, hfirst⟩ := Option.isSome_iff_exists.mp hsome
        rw [hfirst, Option.some_or, Option.some_or]
      · rw [List.lookup_cons, beq_eq_false_iff_ne.mpr hn]
    · rw [ih, List.lookup_append, Option.or_assoc, ← List.lookup_append]
      rfl

theorem nodup_keepFirst (h : (kept.map Prod.fst).Nodup) (fields : List (String × String)) :
    ((keepFirst kept fields).map Prod.fst).Nodup := by
  induction fields generalizing kept with
  | nil => exact h
  | cons field fields ih =>
    obtain ⟨name, value⟩ := field
    rw [keepFirst]
    split
    · exact ih h
    · rename_i hnew
      refine ih (Mapping.nodup_append_new h ?_ value)
      intro hm
      obtain ⟨e, he, hname⟩ := List.mem_map.mp hm
      exact hnew (List.any_eq_true.mpr ⟨e, he, beq_iff_eq.mpr hname⟩)

theorem nodup_decode (query : String) : ((decode query).map Prod.fst).Nodup := by
  have hnone : (([] : List (String × String)).map Prod.fst).Nodup := List.nodup_nil
  exact nodup_keepFirst hnone _

theorem lookup_decode (query name : String) :
    (decode query).lookup name = (readFields query.toList).lookup name :=
  lookup_keepFirst [] _ name

/-- A query string says something of a name if and only if one of its fields that are not empty
reads as the name. -/
theorem lookup_decode_isSome_iff {query : String} : ((decode query).lookup name).isSome = true ↔
    ∃ field ∈ Text.splitAll '&' query.toList, field ≠ [] ∧ (readField field).1 = name := by
  rw [lookup_decode, List.lookup_isSome_iff, readFields]
  constructor
  · rintro ⟨e, he, hname⟩
    obtain ⟨field, hfield, rfl⟩ := List.mem_map.mp he
    obtain ⟨hmem, hne⟩ := List.mem_filter.mp hfield
    exact ⟨field, hmem, by simpa using hne, (beq_iff_eq.mp hname).symm⟩
  · rintro ⟨field, hmem, hne, hname⟩
    refine ⟨readField field, List.mem_map_of_mem (List.mem_filter.mpr ⟨hmem, ?_⟩), ?_⟩
    · simpa using hne
    · exact beq_iff_eq.mpr hname.symm

end Query

namespace Codec

/-- A codec that reads nothing from an empty query string, and no name twice from any. -/
structure Lawful (codec : Codec) : Prop where
  empty : codec.decode "" = []
  distinct : ∀ query, ((codec.decode query).map Prod.fst).Nodup

theorem standard_lawful : standard.Lawful := ⟨rfl, Query.nodup_decode⟩

end Codec

end PathRouting
