import PathRouting.Proofs.Query.Form
import PathRouting.Proofs.Route.Resemblance

/-!
# What a pattern does not name

The query string that is added to the pattern of a route leaves the pattern's own tree as it is. So
a route builds what its own pattern builds from the parameters it names, and what is left over
stands behind that in the query string.
-/
namespace PathRouting

open Pattern Mapping

/-- Whether a key is one of the parameters of a pattern. -/
def Pattern.declares (p : Pattern) (key : Value) : Bool :=
  match key with
  | .str name => p.names.contains name
  | _ => false

theorem Query.reads_encode (params : Mapping Value) : ∃ fields,
    Query.Reads (Query.encode params).toList fields ∧
      ∀ e ∈ params, e.2 ≠ .null → (e.1.text, e.2.text) ∈ fields := by
  refine ⟨Query.fieldsOf params, ?_, ?_⟩
  · rw [Query.reads_iff, Query.encode, String.toList_ofList, Query.readFields_writeFields]
  · rintro ⟨key, value⟩ he hne
    refine List.mem_filterMap.mpr ⟨_, he, ?_⟩
    cases value
    case null => exact absurd rfl hne
    all_goals rfl

namespace Route

variable {d : Definition} {codec : Codec} {cache : Option Cache} {r : Route} {p : Pattern}
  {conditions : Mapping Value} {params : Mapping Value}

namespace Along

variable [CharacterNames]

theorem declares_eq (h : r.Along p conditions) {key : Value} (hkey : key ≠ .str queryParam) :
    r.declares key = p.declares key := by
  cases key with
  | str name =>
    have hne : name ≠ queryParam := fun he => hkey (congrArg Value.str he)
    simp [declares, Pattern.declares, h.order, hne]
  | _ => rfl

/-- Without the reserved parameter a route splits its parameters as its own pattern does. -/
theorem partition_declares (h : r.Along p conditions) (hquery : named? params queryParam = none) :
    (params.partition fun e => r.declares e.1) =
      (params.filter fun e => p.declares e.1, params.filter fun e => !p.declares e.1) := by
  have hkeys : ∀ e ∈ params, r.declares e.1 = p.declares e.1 := by
    intro e he
    refine h.declares_eq fun hkey => ?_
    have hsome : (named? params queryParam).isSome = true :=
      get?_isSome_iff.mpr ⟨e, he, Value.sameKey_iff_text.mpr hkey⟩
    rw [hquery] at hsome
    cases hsome
  have hothers : ∀ e ∈ params, (!r.declares e.1) = !p.declares e.1 := by
    intro e he
    rw [hkeys e he]
  rw [List.partition_eq_filter_filter]
  exact congrArg₂ Prod.mk (List.filter_congr hkeys) (List.filter_congr hothers)

/-- What stands under the reserved parameter comes behind what the pattern itself builds. -/
theorem buildParts_insert_query (h : r.Along p conditions)
    (hdefault : named? r.defaults queryParam = none) (own : Mapping Value) (query : String) :
    buildParts r.defaults (insert own (.str queryParam) (.str query)) (p.parts ++ [queryGroup]) =
      buildParts r.defaults own p.parts ++ ("?" ++ query) := by
  have hgiven : givenText? (insert own (.str queryParam) (.str query)) queryParam = some query := by
    rw [givenText?, named?_insert_self]
    rfl
  have hown : ∀ name ∈ Segment.namesOf p.parts,
      named? (insert own (.str queryParam) (.str query)) name = named? own name := by
    intro name hname
    exact named?_insert_of_ne _ (h.ne_queryParam hname) _
  rw [buildParts_append, buildParts_queryGroup hdefault, hgiven,
    buildParts_of_named (parse_sound h.pattern).2.2.2 hown]
  rfl

/-- A route builds along its own tree from what the pattern names, and then the query string for
what it does not name. -/
theorem build_apart (h : r.Along p conditions) (hquery : named? params queryParam = none)
    (hdefault : named? r.defaults queryParam = none) :
    r.build params = buildParts r.defaults (params.filter fun e => p.declares e.1) p.parts ++
      Query.marked (r.codec.encode (params.filter fun e => !p.declares e.1)) := by
  have hsplit := h.partition_declares hquery
  have hlast : named? (params.filter fun e => p.declares e.1) queryParam = none := by
    have hmem : queryParam ∈ p.names ++ [queryParam] := by simp
    have hnamed := h.named?_declared params hmem
    rwa [hsplit, hquery] at hnamed
  rw [Route.build, hsplit]
  dsimp only
  generalize params.filter (fun e => p.declares e.1) = own at hlast ⊢
  generalize r.codec.encode _ = query
  by_cases hempty : query.isEmpty = true
  · rw [if_pos hempty, Query.marked, if_pos hempty, h.build, buildParts_append,
      buildParts_queryGroup hdefault, givenText?, hlast]
    rfl
  · rw [if_neg hempty, Query.marked, if_neg hempty, h.build, h.buildParts_insert_query hdefault]

/-- The pattern takes what it names, whatever else is there. -/
theorem build_own (h : r.Along p conditions) (hquery : named? params queryParam = none)
    (hdefault : named? r.defaults queryParam = none) :
    r.build params = buildParts r.defaults params p.parts ++
      Query.marked (r.codec.encode (params.filter fun e => !p.declares e.1)) := by
  have hnamed : ∀ name ∈ Segment.namesOf p.parts,
      named? (params.filter fun e => p.declares e.1) name = named? params name :=
    fun name hname => named?_filter params (List.contains_iff_mem.mpr hname)
  rw [h.build_apart hquery hdefault, buildParts_of_named (parse_sound h.pattern).2.2.2 hnamed]

end Along

theorem builder_of_ofDefinition [CharacterNames] (hr : (ofDefinition d codec cache).1 = .ok r)
    (p : Pattern) : Builder.ofPattern p d.defaults = .ok ⟨p, r.defaults⟩ := by
  obtain ⟨-, defaults, -, hd, -, htexts⟩ := mappings_of_ofDefinition hr
  rw [htexts]
  unfold optionalMapping? at hd
  split at hd
  · obtain rfl := Option.some.inj hd
    rename_i hnull
    rw [hnull]
    rfl
  · rename_i entries hmapping
    obtain rfl := Option.some.inj hd
    rw [hmapping]
    cases entries <;> rfl
  · cases hd

/-- The query string changes nothing about a pattern. What a route builds is what its own pattern
builds from the parameters it names, and all that is left over stands behind it. -/
theorem build_leftovers [CharacterNames] :
    (∀ file source, Pattern.parse file (source ++ "(?<query_string>)") =
      (Pattern.parse file source).map fun p => ⟨source ++ "(?<query_string>)", p.parts ++
        [.optional ["query_string"] [.literal "?", .param "query_string"]], file⟩) ∧
    ∀ (d : Definition) (codec : Codec) (cache : Option Cache) (r : Route) (params : Mapping Value),
      d.Backed cache → (ofDefinition d codec cache).1 = .ok r →
      named? params "query_string" = none → named? r.defaults "query_string" = none →
      ∃ p b own query, Pattern.parse none r.pattern = .ok p ∧
        Builder.ofPattern p d.defaults = .ok b ∧
        b.buildFrom (.mapping (params.filter fun e => p.declares e.1)) = .ok own ∧
        query = codec.encode (params.filter fun e => !p.declares e.1) ∧
        r.buildFrom (.mapping params) = .ok (own ++ Query.marked query) ∧
        (codec = .standard → ∃ fields, Query.Reads query.toList fields ∧
          ∀ e ∈ params, p.declares e.1 = false → e.2 ≠ .null →
            (e.1.text, e.2.text) ∈ fields) := by
  constructor
  · intro file source
    exact parse_querySuffix_eq file source
  · intro d codec cache r params hb hr hquery hdefault
    obtain ⟨hcodec, p, conditions, h⟩ := ofDefinition_along hb hr
    refine ⟨p, ⟨p, r.defaults⟩, _, _, h.pattern, builder_of_ofDefinition hr p,
      Builder.buildFrom_mapping _ _, rfl, ?_, ?_⟩
    · have hbuild : r.buildFrom (.mapping params) = .ok (r.build params) := by cases params <;> rfl
      rw [hbuild, h.build_apart hquery hdefault, hcodec]
      rfl
    · rintro rfl
      obtain ⟨fields, hreads, hfields⟩ :=
        Query.reads_encode (params.filter fun e => !p.declares e.1)
      refine ⟨fields, hreads, fun e he hdeclared hne => ?_⟩
      exact hfields e (List.mem_filter.mpr ⟨he, by rw [hdeclared]; rfl⟩) hne

/-- The cache has compiled the pattern of another route, whose condition looks alike. One parameter
has its default, one that is left over has no value, and one is left over under a number. -/
theorem build_leftovers_shared : ∃ first : Request, ∃ r query,
    first.conditions = .mapping [(.str "x", .str "None"), (.str "query_string", .str ".*")] ∧
    (ofDefinition ⟨.str "GET", .str "b", .str "/a(/<x>)<y>", .mapping [(.str "x", .null)],
        .mapping [(.str "x", .int 1), (.str "z", .str "2")]⟩ .standard
        (some ((Cache.empty 8 .unlimited true).compile first).2)).1 = .ok r ∧
      query = Codec.standard.encode [(.str "q", .null), (.int 5, .str "é ?"), (.str "z", .int 2)] ∧
      r.buildFrom (.mapping [(.str "x", .int 1), (.str "q", .null), (.str "y", .str "c"),
        (.int 5, .str "é ?"), (.str "z", .int 2)]) = .ok ("/ac" ++ Query.marked query) := by
  obtain ⟨first, hfirst⟩ : ∃ first : Request, first = ⟨"/a(/<x>)<y>(?<query_string>)",
    .mapping [(.str "x", .str "None"), (.str "query_string", .str ".*")],
    .mapping [(.str "x", .str "1"), (.str "z", .str "2")]⟩ := ⟨_, rfl⟩
  obtain ⟨d, hd⟩ : ∃ d : Definition, d = ⟨.str "GET", .str "b", .str "/a(/<x>)<y>",
    .mapping [(.str "x", .null)], .mapping [(.str "x", .int 1), (.str "z", .str "2")]⟩ := ⟨_, rfl⟩
  have hsound : ((Cache.empty 8 .unlimited true).compile first).2.Sound (· = first) :=
    (Cache.Sound.empty _ _ _ _).compile rfl
  have hkeyed : d.Keyed := hd ▸
    ⟨⟨[("x", .null)], .inr rfl, by decide⟩, ⟨[("x", .int 1), ("z", .str "2")], .inr rfl, by decide⟩⟩
  have hnamed : ∀ r, r = first → ∃ conditions defaults, r.Named conditions defaults := by
    rintro r rfl
    exact hfirst ▸ ⟨[("x", .str "None"), ("query_string", .str ".*")], [("x", "1"), ("z", "2")],
      ⟨.inr rfl, by decide⟩, ⟨.inr rfl, by decide⟩⟩
  have hcollision : ∀ c, d.check = .ok c → ∀ r, r = first →
      r.fingerprint = c.request.fingerprint → r.canonicalText = c.request.canonicalText := by
    rintro c hc r rfl -
    rw [hd] at hc
    obtain rfl := Except.ok.inj hc
    rw [hfirst]
    rfl
  have hbacked := (hkeyed.resembled hsound hnamed hcollision).backed
  have hmade : (ofDefinition d .standard (some ((Cache.empty 8 .unlimited true).compile
      first).2)).1.toOption.map (fun r => (r.pattern, named? r.defaults "query_string")) =
        some ("/a(/<x>)<y>", none) := by
    rw [hd, hfirst]
    decide +kernel
  rw [← hd]
  generalize hr : (ofDefinition _ _ _).1 = result at hmade
  cases result with
  | error e => cases hmade
  | ok r =>
    obtain ⟨hpattern, hdefault⟩ := Prod.mk.inj (Option.some.inj hmade)
    obtain ⟨p, b, own, query, hp, hb, hown, hquery, hbuild, -⟩ := build_leftovers.2 d .standard _ r
      [(.str "x", .int 1), (.str "q", .null), (.str "y", .str "c"), (.int 5, .str "é ?"),
        (.str "z", .int 2)] hbacked hr rfl hdefault
    have htree : Pattern.parse none "/a(/<x>)<y>" = .ok ⟨"/a(/<x>)<y>", [.literal "/a",
      .optional ["x"] [.literal "/", .param "x"], .param "y"], none⟩ := by rfl
    obtain rfl := Except.ok.inj (htree.symm.trans (hpattern ▸ hp))
    rw [hd] at hb
    obtain rfl := Except.ok.inj hb
    obtain rfl : "/ac" = own := Except.ok.inj hown
    exact ⟨first, r, query, congrArg Request.conditions hfirst, hr, hquery, hbuild⟩

end Route

end PathRouting
