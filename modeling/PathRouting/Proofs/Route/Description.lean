import PathRouting.Proofs.Pattern.Splitting
import PathRouting.Proofs.Route.Completion
import PathRouting.Proofs.Route.Congruence

/-!
# What the descriptor of a route tells

A descriptor has neither the conditions of its route nor the numbers of the parameters' groups.
It tells all the same what the route answers to every path and to all parameters.
-/
namespace PathRouting

open Pattern Mapping

def Mapping.Same {α : Type} (m m' : Mapping α) : Prop := ∀ key, get? m key = get? m' key

namespace Route

variable {d d' : Definition} {codec : Codec} {cache cache' : Option Cache} {x y : Route}
  {p q : Pattern} {conditions conditions' : Mapping Value}

/-- Descriptors that differ in the names and in the controllers at most. -/
structure Descriptor.Agrees (x y : Descriptor) : Prop where
  method : x.method = y.method
  defaults : x.defaults.Same y.defaults
  order : x.order = y.order
  matcher : x.matcher = y.matcher
  parts : x.parts = y.parts

namespace Along

variable [CharacterNames]

/-- The numbers of the groups are told as well. -/
theorem matcher_eq (hx : x.Along p conditions) (hy : y.Along q conditions')
    (h : x.descriptor.Agrees y.descriptor) : x.compiled.matcher = y.compiled.matcher := by
  refine Matcher.ofPattern_unique hx.matcher hy.matcher ?_ h.matcher
  rw [← hx.parts, ← hy.parts]
  exact h.parts

theorem complete_same (hx : x.Along p conditions) (h : x.descriptor.Agrees y.descriptor)
    (hcodec : x.codec = y.codec) {path : String} {found : Captures}
    (hrun : x.compiled.matcher.run path = some found) :
    (x.complete found).Same (y.complete found) := by
  have hquery : x.queryText? found = y.queryText? found := by
    rw [queryText?, queryText?, named?, named?]
    exact congrArg (found.lookup queryParam).or (h.defaults (.str queryParam))
  have hdecoded : x.decoded found = y.decoded found := by
    rw [decoded, decoded, hquery, hcodec]
  intro key
  by_cases hk : key = .str queryParam
  · have hnodup : (found.map Prod.fst).Nodup := by
      have hdistinct := hx.distinct
      rw [← hx.order] at hdistinct
      exact (Matcher.run_names hrun).nodup hdistinct
    rw [hk, ← named?, ← named?, named?_complete_queryParam hnodup,
      named?_complete_queryParam hnodup, hdecoded]
  · rw [get?_complete x found hk, get?_complete y found hk, hdecoded]
    exact congrArg (fun value => ((get? (ofTexts id found) key).or value).or _) (h.defaults key)

theorem parse_same (hx : x.Along p conditions) (hy : y.Along q conditions')
    (h : x.descriptor.Agrees y.descriptor) (hcodec : x.codec = y.codec) (path method : Value) :
    Option.Rel Mapping.Same (x.parse path method) (y.parse path method) := by
  unfold parse
  split
  · rename_i path method
    have hmethod : x.method = y.method := h.method
    rw [hmethod, ← hx.matcher_eq hy h]
    split_ifs
    · cases hrun : x.compiled.matcher.run path with
      | none => exact .none
      | some found => exact .some (hx.complete_same h hcodec hrun)
    · exact .none
  · exact .none

theorem build_same (hx : x.Along p conditions) (hy : y.Along q conditions')
    (h : x.descriptor.Agrees y.descriptor) (hcodec : x.codec = y.codec) (params : Mapping Value) :
    x.build params = y.build params := by
  have horder : x.order = y.order := h.order
  have hdeclares : x.declares = y.declares := by
    funext key
    cases key <;> simp only [declares, horder]
  have hparts : p.parts ++ [queryGroup] = q.parts ++ [queryGroup] := by
    rw [← hx.parts, ← hy.parts]
    exact h.parts
  unfold Route.build
  rw [hdeclares, hcodec]
  dsimp only
  rw [hx.build, hy.build, hparts]
  exact buildParts_congr (fun name => h.defaults (.str name)) _ _

end Along

/-- Routes with one descriptor answer alike, whatever conditions they were defined with. Their
parameters' groups have the same numbers. -/
theorem answers_of_descriptor [CharacterNames] (hd : d.Backed cache) (hd' : d'.Backed cache')
    (hx : (ofDefinition d codec cache).1 = .ok x) (hy : (ofDefinition d' codec cache').1 = .ok y)
    (h : x.descriptor.Agrees y.descriptor) :
    x.compiled.matcher.indices = y.compiled.matcher.indices ∧
      (∀ path method, Option.Rel Mapping.Same (x.parse path method) (y.parse path method)) ∧
      ∀ params, x.buildFrom params = y.buildFrom params := by
  obtain ⟨hcodec, p, conditions, hp⟩ := ofDefinition_along hd hx
  obtain ⟨hcodec', q, conditions', hq⟩ := ofDefinition_along hd' hy
  have hsame : x.codec = y.codec := hcodec.trans hcodec'.symm
  refine ⟨congrArg Matcher.indices (hp.matcher_eq hq h), hp.parse_same hq h hsame, ?_⟩
  intro params
  rw [buildFrom, buildFrom, funext (hp.build_same hq h hsame)]

/-- Values that are listed, and an expression that says the same. -/
theorem answers_of_descriptor_respelled : ∃ x y : Route,
    (ofDefinition ⟨.str "get", .str "old", .str "/<kind>(/<color>)",
        .mapping [(.str "kind", .str "(a|\\N\x7bDIGIT ONE\x7d)+"),
          (.str "color", .list [.str "red", .str "x.y"])],
        .mapping [(.str "color", .str "red"), (.str "page", .int 1)]⟩ .standard none).1 = .ok x ∧
      (ofDefinition ⟨.str "GET", .str "new", .str "/<kind>(/<color>)",
        .mapping [(.str "kind", .str "(a|\\N\x7bDIGIT ONE\x7d)+"),
          (.str "color", .str "(?:red|x\\.y)")],
        .mapping [(.str "page", .str "1"), (.str "color", .str "red")]⟩ .standard none).1 = .ok y ∧
      x.descriptor.Agrees y.descriptor ∧ x.compiled.matcher.indices = [1, 3, 4] ∧
      x.compiled.matcher.indices = y.compiled.matcher.indices ∧
      (∀ path method, Option.Rel Mapping.Same (x.parse path method) (y.parse path method)) ∧
      ∀ params, x.buildFrom params = y.buildFrom params := by
  have hmade : ((ofDefinition ⟨.str "get", .str "old", .str "/<kind>(/<color>)",
        .mapping [(.str "kind", .str "(a|\\N\x7bDIGIT ONE\x7d)+"),
          (.str "color", .list [.str "red", .str "x.y"])],
        .mapping [(.str "color", .str "red"), (.str "page", .int 1)]⟩
        .standard none).1.toOption.bind fun x =>
      (ofDefinition ⟨.str "GET", .str "new", .str "/<kind>(/<color>)",
        .mapping [(.str "kind", .str "(a|\\N\x7bDIGIT ONE\x7d)+"),
          (.str "color", .str "(?:red|x\\.y)")],
        .mapping [(.str "page", .str "1"), (.str "color", .str "red")]⟩
        .standard none).1.toOption.map fun y =>
          decide (x.method = y.method ∧ x.pattern = y.pattern ∧ x.order = y.order ∧
            x.compiled.matcher.source = y.compiled.matcher.source ∧
            x.compiled.matcher.indices = [1, 3, 4])) = some true := by decide +kernel
  generalize hx : (ofDefinition _ _ _).1 = result at hmade
  cases result with
  | error e => cases hmade
  | ok x =>
    generalize hy : (ofDefinition ⟨.str "GET", _, _, _, _⟩ _ _).1 = result at hmade
    cases result with
    | error e => cases hmade
    | ok y =>
      obtain ⟨hmethod, hpattern, horder, hmatcher, hindices⟩ :=
        of_decide_eq_true (Option.some.inj hmade)
      have hparts : x.descriptor.parts = y.descriptor.parts := by
        obtain ⟨-, p, conditions, hp⟩ := ofDefinition_along (Definition.backed_none _) hx
        obtain ⟨-, q, conditions', hq⟩ := ofDefinition_along (Definition.backed_none _) hy
        obtain rfl := hq.eq (hpattern ▸ hp.pattern)
        exact hp.parts.trans hq.parts.symm
      have hdefaults : x.defaults.Same y.defaults := by
        obtain ⟨c, hc, -, hroute⟩ := ofDefinition_ok hx
        obtain ⟨c', hc', -, hroute'⟩ := ofDefinition_ok hy
        obtain rfl := Except.ok.inj hc
        obtain rfl := Except.ok.inj hc'
        have hlookup : ∀ name, List.lookup name [("color", "red"), ("page", "1")] =
            List.lookup name [("page", "1"), ("color", "red")] := by
          intro name
          by_cases hcolor : name = "color"
          · subst hcolor
            rfl
          · simp [List.lookup_cons, beq_eq_false_iff_ne.mpr hcolor]
        rw [hroute, hroute']
        exact get?_ofTexts_congr hlookup
      have h : x.descriptor.Agrees y.descriptor := ⟨hmethod, hdefaults, horder, hmatcher, hparts⟩
      exact ⟨x, y, rfl, rfl, h, hindices, answers_of_descriptor (Definition.backed_none _)
        (Definition.backed_none _) hx hy h⟩

end Route

end PathRouting
