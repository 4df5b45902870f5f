import PathRouting.Proofs.Route.Making

/-!
# Where the parameters of a match come from

Under every key stands what the path gave, else what the defaults give, else what the query string
gives. The query string itself is not kept.
-/
namespace PathRouting

open Pattern Mapping

namespace Pattern

theorem Matcher.run_names {m : Matcher} {path : String} {found : Captures}
    (h : m.run path = some found) : (found.map Prod.fst).Sublist m.order := by
  obtain ⟨c, -, rfl⟩ := Option.map_eq_some_iff.mp h
  rw [Matcher.order]
  induction m.slots with
  | nil => exact .slnil
  | cons slot slots ih =>
    obtain ⟨name, number⟩ := slot
    cases hc : c.captured? number with
    | none =>
      rw [List.filterMap_cons_none (by simp [hc])]
      exact ih.cons _
    | some text =>
      rw [List.filterMap_cons_some (b := (name, String.ofList text)) (by simp [hc])]
      exact ih.cons_cons _

end Pattern

namespace Route

variable {r : Route} {found : Captures}

/-- The query string of a match: what the path gave, else the default. -/
def queryText? (r : Route) (found : Captures) : Option String :=
  (found.lookup queryParam).or (named? r.defaults queryParam)

def decoded (r : Route) (found : Captures) : Captures :=
  match r.queryText? found with
  | none => []
  | some query => if query.isEmpty then [] else r.codec.decode query

theorem mem_decoded {name text : String} (h : (r.decoded found).lookup name = some text) :
    ∃ query, r.queryText? found = some query ∧ (r.codec.decode query).lookup name = some text := by
  unfold decoded at h
  split at h
  · cases h
  · rename_i query hq
    split_ifs at h
    · cases h
    · exact ⟨query, hq, h⟩

def beforeQuery (r : Route) (found : Captures) : Mapping String :=
  r.defaults.foldl (fun m (k, v) => insertNew m k v) (ofTexts id found)

theorem get?_beforeQuery (r : Route) (found : Captures) (key : Value) :
    get? (r.beforeQuery found) key = (get? (ofTexts id found) key).or (get? r.defaults key) :=
  get?_merged _ _ key

theorem complete_eq (r : Route) (found : Captures) : r.complete found =
    (r.queryText? found).elim (r.beforeQuery found) fun _ =>
      (ofTexts id (r.decoded found)).foldl (fun m (k, v) => insertNew m k v)
        (erase (r.beforeQuery found) (.str queryParam)) := by
  have hquery : named? (r.beforeQuery found) queryParam = r.queryText? found := by
    rw [named?, get?_beforeQuery, ← named?, named?_ofTexts, Option.map_id, id]
    rfl
  unfold complete
  dsimp only
  split
  · rename_i hn
    have hq : r.queryText? found = none := hquery.symm.trans hn
    rw [hq]
    rfl
  · rename_i query hs
    have hq : r.queryText? found = some query := hquery.symm.trans hs
    rw [hq, decoded, hq, Option.elim_some]
    dsimp only
    split_ifs
    · rfl
    · exact merged_texts _ _

theorem get?_complete (r : Route) (found : Captures) {key : Value} (hk : key ≠ .str queryParam) :
    get? (r.complete found) key = ((get? (ofTexts id found) key).or (get? r.defaults key)).or
      (get? (ofTexts id (r.decoded found)) key) := by
  rw [complete_eq, ← get?_beforeQuery]
  cases hq : r.queryText? found with
  | none =>
    rw [decoded, hq]
    exact Option.or_none.symm
  | some query => rw [Option.elim_some, get?_merged, get?_erase_of_ne _ hk]

theorem named?_complete_queryParam (hn : (found.map Prod.fst).Nodup) :
    named? (r.complete found) queryParam = (r.decoded found).lookup queryParam := by
  rw [complete_eq, named?]
  cases hq : r.queryText? found with
  | none =>
    rw [decoded, hq, Option.elim_none, get?_beforeQuery, ← named?, named?_ofTexts, Option.map_id,
      id]
    exact hq
  | some query =>
    have hdistinct : Distinct (r.beforeQuery found) := (distinct_ofTexts hn).merged _
    rw [Option.elim_some, get?_merged, hdistinct.get?_erase_self, Option.none_or, ← named?,
      named?_ofTexts, Option.map_id, id]

end Route

end PathRouting
