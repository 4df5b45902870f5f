import PathRouting.Proofs.Pattern.LookAlike
import PathRouting.Proofs.Pattern.Transparency
import PathRouting.Proofs.Route.Acceptance
import PathRouting.Proofs.Route.Congruence

/-!
# Routes under conditions that are written alike

A cache can give a route the matcher of another one whose conditions are written alike. Where no
condition is an expression of a user's own, that is still a search along the route's own tree, and
what a parameter may take differs at most where it has no condition.
-/
namespace PathRouting.Route

open Pattern Mapping

variable {d : Definition} {codec : Codec} {cache : Option Cache} {r : Route} {p : Pattern}
  {conditions : Mapping Value}

section

variable [CharacterNames]

/-- A cache that has compiled requests with names only has something that resembles a definition
with names, as long as different canonical texts have different fingerprints. -/
theorem Definition.Keyed.resembled (h : d.Keyed) {asked : Request → Prop} {own : Cache}
    (hs : own.Sound asked)
    (hnamed : ∀ r, asked r → ∃ conditions defaults, r.Named conditions defaults)
    (hcollision : ∀ c, d.check = .ok c → ∀ r, asked r → r.fingerprint = c.request.fingerprint →
      r.canonicalText = c.request.canonicalText) : d.Resembled (some own) := by
  intro c compiled hcheck hcompile
  obtain ⟨conditions, defaults, hc⟩ := h.request hcheck
  have hrequest : (own.compile c.request).1.map Shared.compiled = .ok compiled := hcompile
  generalize hx : own.compile c.request = x at hrequest
  have hcases := hx ▸ own.compile_cases c.request
  cases hcases with
  | keyless _ => cases hrequest
  | refused _ _ _ => cases hrequest
  | stored _ _ hfresh =>
    obtain rfl := Except.ok.inj hrequest
    exact ⟨c.conditions, _, .refl _, hfresh, fun _ => rfl⟩
  | @found key shared e hkey hlookup =>
    obtain rfl := Except.ok.inj hrequest
    obtain ⟨entry, hentry, he, rfl, -⟩ := Cache.lookup_found hlookup
    obtain ⟨r, hr, hf, hfresh⟩ := hs entry hentry
    obtain ⟨others, _, hr'⟩ := hnamed r hr
    have htext := hcollision c hcheck r hr (by rw [hf, hkey, he])
    obtain ⟨hsource, hconditions, hdefaults⟩ := (hr'.canonicalText_eq_iff hc).mp htext
    -- the same request under the conditions of the one that the cache has compiled
    have hown : Request.Named { c.request with conditions := .mapping (ofTexts id others) } others
        defaults := ⟨⟨.inr rfl, hr'.conditions.distinct⟩, hc.defaults⟩
    have hagree := hr'.agree hown ((hr'.canonicalText_eq_iff hown).mpr
      ⟨hsource, fun _ => rfl, hdefaults⟩) fun _ _ _ _ _ _ hv hw _ => by
        rw [Option.some.inj (hv.symm.trans hw)]
    rw [hfresh] at hagree
    generalize hcompiled : Request.compile _ = result at hagree
    cases hagree with
    | compiled halike =>
      refine ⟨ofTexts id others, _, halike, hcompiled, fun name => ?_⟩
      rw [hc.conditions.lookup_eq, named?_ofTexts, Option.map_id]
      exact hconditions name

/-- A route that matches and builds along the tree of its own pattern, under conditions that are
written as its own. -/
structure Seeming (r : Route) (p : Pattern) (conditions : Mapping Value) : Prop
    extends Along r p conditions where
  upper : Text.upper r.method = r.method
  query : named? r.conditions queryParam = some (.str queryCondition)
  alike : ∀ name, (named? conditions name).map Request.canonicalValue =
    (named? r.conditions name).map Request.canonicalValue

theorem ofDefinition_seeming (hs : d.Resembled cache)
    (hr : (ofDefinition d codec cache).1 = .ok r) :
    r.codec = codec ∧ ∃ p conditions, r.Seeming p conditions := by
  obtain ⟨c, hcheck, hcompile, hroute⟩ := ofDefinition_ok hr
  obtain ⟨conditions, fresh, halike, hfresh, hwritten⟩ := hs c _ hcheck hcompile
  obtain ⟨p, h⟩ := along_of_compile hroute halike hfresh
  have hconditions : r.conditions = c.conditions := congrArg Route.conditions hroute
  exact ⟨congrArg Route.codec hroute, p, conditions, { h with
    upper := upper_of_ofDefinition hr, query := query_of_ofDefinition hr,
    alike := fun name => hconditions ▸ hwritten name }⟩

end

/-- What a parameter may take where a condition may have been replaced by one that is written
alike. -/
def Seems (r : Route) (name : String) (a : Allowed) : Prop :=
  a = r.allowed name ∨ r.condition name = .null ∧ a = .oneOf ["None"]

theorem allowed_of_listing {name : String} (h : Listing (r.condition name)) :
    Allowed.ofCondition? (r.condition name) = some (r.allowed name) := by
  obtain hc | ⟨texts, hl, hne⟩ := listing_iff.mp h
  · rw [allowed, hc]
    rfl
  · rw [allowed, ofCondition_listed hl hne]
    rfl

namespace Seeming

variable [CharacterNames]

theorem canonical_eq (h : r.Seeming p conditions) (name : String) :
    Request.canonicalValue ((named? conditions name).getD .null) =
      Request.canonicalValue (r.condition name) := by
  have halike := h.alike name
  rw [condition]
  cases hc : named? conditions name with
  | none =>
    rw [hc, Option.map_none, eq_comm, Option.map_eq_none_iff] at halike
    rw [halike]
  | some value =>
    rw [hc, Option.map_some, eq_comm, Option.map_eq_some_iff] at halike
    obtain ⟨own, hown, he⟩ := halike
    rw [hown]
    exact he.symm

theorem condition_queryParam (h : r.Seeming p conditions) :
    (named? conditions queryParam).getD .null = .str queryCondition := by
  obtain ⟨-, nodes, last, hcomposed, -⟩ := Matcher.ofPattern_ok h.matcher
  have hname : queryParam ∈ Segment.namesOf (p.parts ++ [queryGroup]) := by
    rw [Segment.namesOf_append]
    exact List.mem_append_right _ (List.mem_singleton_self _)
  obtain ⟨value, before, body, after, hvalue, hfills⟩ := hcomposed.fills hname
  obtain rfl := Except.ok.inj ((conditionOf_mapping conditions queryParam).symm.trans hvalue)
  have hwritten := h.canonical_eq queryParam
  rw [condition, h.query] at hwritten
  exact hfills.eq_str_of_alike hwritten (by decide)

/-- The matcher of a route without conditions searches along the tree, under no conditions. -/
theorem run_plain (h : r.Seeming p conditions)
    (hnone : ∀ name ∈ p.names, named? r.conditions name = none) (path : String) :
    r.compiled.matcher.run path = decompose? plainAllowed (p.parts ++ [queryGroup]) path := by
  obtain ⟨-, nodes, last, hcomposed, hroot, -⟩ := Matcher.ofPattern_ok h.matcher
  have hnames : Segment.namesOf (p.parts ++ [queryGroup]) = p.names ++ [queryParam] :=
    Segment.namesOf_append _ _
  refine hcomposed.run hroot ?_ path
  intro name hname value hvalue
  obtain rfl := Except.ok.inj ((conditionOf_mapping conditions name).symm.trans hvalue)
  rw [hnames, List.mem_append, List.mem_singleton] at hname
  rcases hname with hown | rfl
  · have halike := h.alike name
    rw [hnone name hown, Option.map_none, Option.map_eq_none_iff] at halike
    rw [halike, plainAllowed, if_neg (h.ne_queryParam hown)]
    exact admits_of_ofCondition rfl
  · rw [h.condition_queryParam]
    exact admits_of_ofCondition rfl

/-- The matcher searches along the tree, under what seem to be the route's own conditions. -/
theorem run (h : r.Seeming p conditions) (hl : ∀ name ∈ p.names, Listing (r.condition name)) :
    ∃ allowed : String → Allowed, allowed queryParam = .line ∧
      (∀ name ∈ p.names, r.Seems name (allowed name)) ∧
      ∀ path, r.compiled.matcher.run path =
        decompose? allowed (p.parts ++ [queryGroup]) path := by
  obtain ⟨-, nodes, last, hcomposed, hroot, -⟩ := Matcher.ofPattern_ok h.matcher
  have hnames : Segment.namesOf (p.parts ++ [queryGroup]) = p.names ++ [queryParam] :=
    Segment.namesOf_append _ _
  have hadmits : ∀ name, ∃ a, name ∈ p.names ++ [queryParam] →
      (name = queryParam → a = .line) ∧ (name ∈ p.names → r.Seems name a) ∧
        Admits ((named? conditions name).getD .null) a := by
    intro name
    by_cases hname : name ∈ p.names ++ [queryParam]
    · obtain ⟨value, before, body, after, hvalue, hfills⟩ := hcomposed.fills (hnames ▸ hname)
      obtain rfl := Except.ok.inj ((conditionOf_mapping conditions name).symm.trans hvalue)
      rcases List.mem_append.mp hname with hown | hquery
      · obtain ⟨a, ha, hseems⟩ := hfills.admits_of_alike (hl name hown) (h.canonical_eq name)
        refine ⟨a, fun _ => ⟨fun he => absurd he (h.ne_queryParam hown), fun _ => ?_, ha⟩⟩
        refine hseems.imp_left fun ho => ?_
        exact Option.some.inj (ho.symm.trans (allowed_of_listing (hl name hown)))
      · obtain rfl := List.mem_singleton.mp hquery
        refine ⟨.line, fun _ => ⟨fun _ => rfl, fun hown => ?_, ?_⟩⟩
        · exact absurd rfl (h.ne_queryParam hown)
        · rw [h.condition_queryParam]
          exact admits_of_ofCondition rfl
    · exact ⟨.line, fun hm => absurd hm hname⟩
  choose allowed hallowed using hadmits
  refine ⟨allowed, (hallowed queryParam (by simp)).1 rfl, ?_, ?_⟩
  · intro name hname
    exact (hallowed name (List.mem_append_left _ hname)).2.1 hname
  · intro path
    refine hcomposed.run hroot ?_ path
    intro name hname value hvalue
    obtain rfl := Except.ok.inj ((conditionOf_mapping conditions name).symm.trans hvalue)
    exact (hallowed name (hnames ▸ hname)).2.2

end Seeming

end PathRouting.Route
