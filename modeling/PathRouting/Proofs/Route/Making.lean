import PathRouting.Proofs.Pattern.Congruence
import PathRouting.Proofs.Pattern.Filling
import PathRouting.Proofs.Route.RoundTrip

/-!
# Routes and the trees of their patterns

A route that was made matches and builds along the tree of its own pattern with the query string
behind it, under the conditions and the defaults it was made with. A cache makes no difference to
that as long as it stands in for what compiling would give.
-/
namespace PathRouting.Route

open Pattern Mapping

variable {d : Definition} {codec : Codec} {cache : Option Cache} {r : Route} {p : Pattern}

section

variable [CharacterNames]

/-- What a cache has for a definition is what compiling it would give. -/
def Definition.Unaffected (d : Definition) (cache : Option Cache) : Prop :=
  ∀ c, d.check = .ok c → Pattern.Agree (compileWith cache c.request).1 c.request.compile

theorem Definition.unaffected_none (d : Definition) : d.Unaffected none :=
  fun _ _ => .refl _

/-- What a cache has for a definition was compiled for the same pattern with the same defaults,
under whatever conditions. -/
def Definition.Backed (d : Definition) (cache : Option Cache) : Prop :=
  ∀ c compiled, d.check = .ok c → (compileWith cache c.request).1 = .ok compiled →
    ∃ conditions fresh, compiled.Alike fresh ∧
      Request.compile { c.request with conditions := .mapping conditions } = .ok fresh

/-- What a cache has for a definition was compiled for the same pattern with the same defaults,
under conditions that are written alike. -/
def Definition.Resembled (d : Definition) (cache : Option Cache) : Prop :=
  ∀ c compiled, d.check = .ok c → (compileWith cache c.request).1 = .ok compiled →
    ∃ conditions fresh, compiled.Alike fresh ∧
      Request.compile { c.request with conditions := .mapping conditions } = .ok fresh ∧
      ∀ name, (named? conditions name).map Request.canonicalValue =
        (named? c.conditions name).map Request.canonicalValue

theorem Definition.Unaffected.resembled (h : d.Unaffected cache) : d.Resembled cache := by
  intro c compiled hcheck hcompile
  have hagree := h c hcheck
  rw [hcompile] at hagree
  generalize hfresh : c.request.compile = fresh at hagree
  cases hagree with
  | compiled halike => exact ⟨c.conditions, _, halike, hfresh, fun _ => rfl⟩

theorem Definition.Resembled.backed (h : d.Resembled cache) : d.Backed cache := by
  intro c compiled hcheck hcompile
  obtain ⟨conditions, fresh, halike, hfresh, -⟩ := h c compiled hcheck hcompile
  exact ⟨conditions, fresh, halike, hfresh⟩

theorem Definition.Unaffected.backed (h : d.Unaffected cache) : d.Backed cache :=
  h.resembled.backed

theorem Definition.resembled_none (d : Definition) : d.Resembled none :=
  d.unaffected_none.resembled

theorem Definition.backed_none (d : Definition) : d.Backed none := d.unaffected_none.backed

/-- A route that matches and builds along the tree of its own pattern, under some conditions. -/
structure Along (r : Route) (p : Pattern) (conditions : Mapping Value) : Prop where
  pattern : Pattern.parse none r.pattern = .ok p
  matcher : Matcher.ofPattern ⟨r.pattern ++ querySuffix, p.parts ++ [queryGroup], none⟩
    (.mapping conditions) = .ok r.compiled.matcher
  parts : r.compiled.builder.pattern.parts = p.parts ++ [queryGroup]
  build : ∀ params, r.compiled.builder.build params =
    buildParts r.defaults params (p.parts ++ [queryGroup])

/-- A route that matches and builds along the tree of its own pattern, under its own conditions. -/
structure Made (r : Route) (p : Pattern) : Prop extends Along r p r.conditions where
  upper : Text.upper r.method = r.method
  query : named? r.conditions queryParam = some (.str queryCondition)

end

theorem mapValues_text (texts : Mapping String) :
    mapValues Value.text (mapValues Value.str texts) = texts := by
  rw [mapValues, mapValues, List.map_map]
  exact List.map_id texts

theorem parse_of_querySuffix {source : String} {q : Pattern}
    (h : Pattern.parse none (source ++ querySuffix) = .ok q) : ∃ p,
      Pattern.parse none source = .ok p ∧
        q = ⟨source ++ querySuffix, p.parts ++ [queryGroup], none⟩ := by
  rw [parse_querySuffix_eq] at h
  cases hp : Pattern.parse none source with
  | error e =>
    rw [hp] at h
    cases h
  | ok p =>
    rw [hp] at h
    exact ⟨p, rfl, (Except.ok.inj h).symm⟩

section

variable [CharacterNames]

/-- A route stands along its tree under the conditions that its pattern was compiled under. -/
theorem along_of_compile {c : Checked} {conditions : Mapping Value} {fresh : Compiled}
    (hroute : r = ⟨c.method, c.name, c.pattern, c.conditions, c.defaults, codec, r.compiled, .null⟩)
    (halike : r.compiled.Alike fresh)
    (hfresh : Request.compile { c.request with conditions := .mapping conditions } = .ok fresh) :
    ∃ p, r.Along p conditions := by
  obtain ⟨q, m, hq, hm, rfl⟩ := Request.compile_ok hfresh
  obtain ⟨p, hp, rfl⟩ := parse_of_querySuffix hq
  refine ⟨p, ?_⟩
  constructor
  case pattern =>
    rw [hroute]
    exact hp
  case matcher =>
    rw [halike.matcher, hroute]
    exact hm
  case parts => rw [halike.built]
  case build =>
    intro params
    have hdefaults : r.defaults = c.defaults := congrArg Route.defaults hroute
    rw [Builder.build, halike.built, hdefaults, ← mapValues_text c.defaults]
    exact buildParts_congr halike.texts params _

/-- Every route that is made stands along the tree of its pattern. -/
theorem ofDefinition_along (hb : d.Backed cache) (hr : (ofDefinition d codec cache).1 = .ok r) :
    r.codec = codec ∧ ∃ p conditions, r.Along p conditions := by
  obtain ⟨c, hcheck, hcompile, hroute⟩ := ofDefinition_ok hr
  obtain ⟨conditions, fresh, halike, hfresh⟩ := hb c _ hcheck hcompile
  obtain ⟨p, h⟩ := along_of_compile hroute halike hfresh
  exact ⟨congrArg Route.codec hroute, p, conditions, h⟩

theorem upper_of_ofDefinition (hr : (ofDefinition d codec cache).1 = .ok r) :
    Text.upper r.method = r.method := by
  obtain ⟨c, hcheck, -, hroute⟩ := ofDefinition_ok hr
  rw [hroute]
  exact upper_method (Definition.check_ok hcheck).1

/-- The conditions and the defaults of a route are those of its definition, and there is the
condition on the query string. -/
theorem mappings_of_ofDefinition (hr : (ofDefinition d codec cache).1 = .ok r) :
    ∃ conditions defaults, optionalMapping? d.conditions = some conditions ∧
      optionalMapping? d.defaults = some defaults ∧
      r.conditions = insert conditions (.str queryParam) (.str queryCondition) ∧
      r.defaults = mapValues Value.text defaults := by
  obtain ⟨c, hcheck, -, hroute⟩ := ofDefinition_ok hr
  obtain ⟨-, -, -, conditions, defaults, hc, hd, hcc, hcd⟩ := Definition.check_ok hcheck
  exact ⟨conditions, defaults, hc, hd, (congrArg Route.conditions hroute).trans hcc,
    (congrArg Route.defaults hroute).trans hcd⟩

theorem query_of_ofDefinition (hr : (ofDefinition d codec cache).1 = .ok r) :
    named? r.conditions queryParam = some (.str queryCondition) := by
  obtain ⟨conditions, -, -, -, hconditions, -⟩ := mappings_of_ofDefinition hr
  rw [hconditions]
  exact named?_insert_self conditions _ _

/-- Where a cache makes no difference, a route stands under its own conditions. -/
theorem ofDefinition_made (hu : d.Unaffected cache)
    (hr : (ofDefinition d codec cache).1 = .ok r) : r.codec = codec ∧ ∃ p, r.Made p := by
  obtain ⟨c, hcheck, hcompile, hroute⟩ := ofDefinition_ok hr
  have hagree := hu c hcheck
  rw [hcompile] at hagree
  generalize hfresh : c.request.compile = fresh at hagree
  cases hagree with
  | compiled halike =>
    obtain ⟨p, h⟩ := along_of_compile hroute halike hfresh
    have hconditions : r.conditions = c.conditions := congrArg Route.conditions hroute
    exact ⟨congrArg Route.codec hroute, p, { hconditions ▸ h with
      upper := upper_of_ofDefinition hr, query := query_of_ofDefinition hr }⟩

end

namespace Along

variable {conditions : Mapping Value}

variable [CharacterNames]

theorem eq {q : Pattern} (h : r.Along p conditions) (hq : Pattern.parse none r.pattern = .ok q) :
    q = p :=
  Except.ok.inj (hq.symm.trans h.pattern)

theorem order (h : r.Along p conditions) : r.order = p.names ++ [queryParam] := by
  obtain ⟨-, nodes, last, hcomposed, -⟩ := Matcher.ofPattern_ok h.matcher
  rw [Route.order, Matcher.order, hcomposed.names]
  exact Segment.namesOf_append _ _

theorem declares_name (h : r.Along p conditions) {name : String}
    (hname : name ∈ p.names ++ [queryParam]) : r.declares (.str name) = true := by
  rw [declares, h.order]
  exact List.contains_iff_mem.mpr hname

/-- Nothing is lost under the names of the pattern when what it does not name is set apart. -/
theorem named?_declared (h : r.Along p conditions) (params : Mapping Value) {name : String}
    (hname : name ∈ p.names ++ [queryParam]) :
    named? (params.partition fun e => r.declares e.1).1 name = named? params name := by
  rw [List.partition_eq_filter_filter]
  exact named?_filter params (h.declares_name hname)

theorem distinct (h : r.Along p conditions) : (p.names ++ [queryParam]).Nodup := by
  obtain ⟨hnodup, -⟩ := Matcher.ofPattern_ok h.matcher
  rw [← show Segment.namesOf (p.parts ++ [queryGroup]) = p.names ++ [queryParam] from
    Segment.namesOf_append _ _]
  exact hnodup

theorem ne_queryParam (h : r.Along p conditions) {name : String} (hname : name ∈ p.names) :
    name ≠ queryParam := by
  intro he
  exact (List.nodup_append.mp h.distinct).2.2 name hname queryParam
    (List.mem_singleton_self _) he

end Along

end PathRouting.Route
