import PathRouting.Proofs.Pattern.Chain
import PathRouting.Proofs.Route.Leftovers

/-!
# Routes along chains

A route without conditions whose pattern is a chain reads from a path that it has built the values
of the links that were rendered. What stands inside a link that was not rendered is lost.
-/
namespace PathRouting

open Pattern Mapping

namespace Route

variable {d : Definition} {codec : Codec} {cache : Option Cache} {r : Route} {c : Chain}

/-! ## Routes without conditions -/

section

variable [CharacterNames]

theorem conditions_of_free (hconditions : optionalMapping? d.conditions = some [])
    (hr : (ofDefinition d codec cache).1 = .ok r) {name : String} (hname : name ≠ queryParam) :
    named? r.conditions name = none := by
  obtain ⟨conditions, -, hc, -, hown, -⟩ := mappings_of_ofDefinition hr
  obtain rfl := Option.some.inj (hc.symm.trans hconditions)
  rw [hown, named?_insert_of_ne _ hname]
  rfl

theorem defaults_of_free (hdefaults : optionalMapping? d.defaults = some [])
    (hr : (ofDefinition d codec cache).1 = .ok r) : r.defaults = [] := by
  obtain ⟨-, defaults, -, hd, -, hown⟩ := mappings_of_ofDefinition hr
  obtain rfl := Option.some.inj (hd.symm.trans hdefaults)
  exact hown

theorem ofDefinition_chain (hconditions : optionalMapping? d.conditions = some [])
    (hs : d.Resembled cache) (hr : (ofDefinition d codec cache).1 = .ok r)
    (hpattern : r.pattern = c.source) (hc : c.Separated) :
    r.codec = codec ∧ c.names.Nodup ∧ queryParam ∉ c.names ∧
      ∃ conditions, r.Seeming c.pattern conditions ∧
        ∀ name ∈ c.names, named? r.conditions name = none := by
  obtain ⟨hcodec, p, conditions, h⟩ := ofDefinition_seeming hs hr
  have hparse : Pattern.parse none r.pattern = .ok c.pattern := by
    rw [hpattern]
    exact c.parse_source hc
  obtain rfl := h.eq hparse
  have hnames := c.names_pattern
  have hreserved : queryParam ∉ c.names := fun hm => h.ne_queryParam (hnames ▸ hm) rfl
  refine ⟨hcodec, hnames ▸ (List.nodup_append.mp h.distinct).1, hreserved, conditions, h, ?_⟩
  intro name hname
  exact conditions_of_free hconditions hr (ne_of_mem_of_not_mem hname hreserved)

theorem Seeming.parse_built {conditions : Mapping Value} (h : r.Seeming c.pattern conditions)
    (hfree : ∀ name ∈ c.names, named? r.conditions name = none) (hc : c.Separated)
    {params : Mapping Value} {query : String} (hquery : named? params queryParam = none)
    (hdefault : named? r.defaults queryParam = none)
    (hencode : r.codec.encode (params.filter fun e => !c.pattern.declares e.1) = query)
    (hline : '\n' ∉ query.toList)
    (hvalue : ∀ name ∈ c.names, isSupplied r.defaults params name = true →
      Allowed.nameRun.holds (emitted r.defaults params name).toList = true) :
    r.parse (.str (r.build params)) (.str r.method) =
      some (r.complete (c.shown r.defaults params ++ queryFields query)) := by
  have hnames := c.names_pattern
  have hall : ∀ name ∈ c.names, plainAllowed name = .nameRun := fun name hname =>
    if_neg (h.ne_queryParam (hnames ▸ hname))
  have hmark : ∀ {s found}, Decomposes plainAllowed [queryGroup] s found →
      ∀ first ∈ s.head?, first = '?' := by
    intro s found hd first hfirst
    obtain ⟨rfl, -⟩ | ⟨rest, rfl, -⟩ := decomposes_queryGroup hd
    · cases hfirst
    · exact (Option.some.inj hfirst).symm
  have hbuilt : r.build params = buildParts r.defaults params c.parts ++ Query.marked query := by
    rw [h.build_own hquery hdefault, hencode]
    rfl
  have hfound := Chain.decompose_built hc (determinate_queryGroup plainAllowed) hmark hall hvalue
    (decomposes_marked hline)
  rw [parse, h.upper, if_pos rfl, h.run_plain (hnames ▸ hfree), hbuilt]
  exact congrArg (Option.map r.complete) hfound

end

/-! ## Texts as parameters -/

section Texts

variable {params defaults : List (String × String)}

theorem givenText_ofTexts (params : List (String × String)) (name : String) :
    givenText? (ofTexts .str params) name = params.lookup name := by
  rw [givenText?, named?_ofTexts]
  cases params.lookup name <;> rfl

theorem isSupplied_ofTexts_iff {name : String} :
    isSupplied (ofTexts id defaults) (ofTexts .str params) name = true ↔
      ∃ value, params.lookup name = some value ∧ defaults.lookup name ≠ some value := by
  rw [isSupplied, givenText_ofTexts, named?_ofTexts, Option.map_id]
  cases params.lookup name <;> simp

theorem holds_emitted (defaults : List (String × String)) (hvalues : ∀ e ∈ params, e.1 ∈ c.names →
      Allowed.nameRun.holds e.2.toList = true) {name : String} (hname : name ∈ c.names)
    (h : isSupplied (ofTexts id defaults) (ofTexts .str params) name = true) :
    Allowed.nameRun.holds
      (emitted (ofTexts id defaults) (ofTexts .str params) name).toList = true := by
  obtain ⟨value, hvalue, -⟩ := isSupplied_ofTexts_iff.mp h
  rw [emitted, givenText_ofTexts, hvalue]
  obtain ⟨before, after, he, -⟩ := List.lookup_eq_some_iff.mp hvalue
  exact hvalues (name, value) (by simp [he]) hname

theorem exists_lookup_iff {name : String} :
    (∃ value, params.lookup name = some value) ↔ name ∈ params.map Prod.fst := by
  rw [← Option.isSome_iff_exists, List.lookup_isSome_iff, List.mem_map]
  refine exists_congr fun e => and_congr_right fun _ => ?_
  rw [beq_iff_eq, Eq.comm]

/-- Without defaults the links that are rendered are the longest beginning that is supplied. -/
theorem reached_ofTexts (params : List (String × String)) (c : Chain) :
    c.reached [] (ofTexts .str params) = c.leading (params.map Prod.fst) := by
  have hsupplied : isSupplied [] (ofTexts .str params) = (params.map Prod.fst).contains := by
    funext name
    have hnone : ([] : Mapping String) = ofTexts id ([] : List (String × String)) := rfl
    rw [Bool.eq_iff_iff, List.contains_iff_mem, hnone, isSupplied_ofTexts_iff, ← exists_lookup_iff]
    simp
  rw [Chain.reached, Chain.leading, hsupplied]

theorem encode_others (params : List (String × String)) (c : Chain) :
    Codec.standard.encode ((ofTexts .str params).filter fun e => !c.pattern.declares e.1) =
      queryOf c.pattern params := by
  rw [queryOf, othersOf, ofTexts, List.filter_map]
  rfl

theorem mem_shown (hkeys : (params.map Prod.fst).Nodup) (e : String × String) :
    e ∈ c.shown [] (ofTexts .str params) ↔
      e ∈ params ∧ e.1 ∈ c.leading (params.map Prod.fst) := by
  have hemitted : ∀ name, emitted [] (ofTexts .str params) name =
      (params.lookup name).getD "" := by
    intro name
    rw [emitted, givenText_ofTexts]
    rfl
  rw [Chain.shown, reached_ofTexts, List.mem_map]
  constructor
  · rintro ⟨name, hname, rfl⟩
    have hmem : name ∈ params.map Prod.fst :=
      List.contains_iff_mem.mp (List.mem_takeWhile_imp hname)
    obtain ⟨value, hvalue⟩ := exists_lookup_iff.mpr hmem
    rw [hemitted, hvalue]
    exact ⟨(lookup_eq_some_iff hkeys).mp hvalue, hname⟩
  · rintro ⟨he, hname⟩
    refine ⟨e.1, hname, ?_⟩
    rw [hemitted, lookup_of_mem hkeys he]
    rfl

theorem mem_othersOf (e : String × String) :
    e ∈ othersOf c.pattern params ↔ e ∈ params ∧ e.1 ∉ c.names := by
  rw [othersOf, List.mem_filter, c.names_pattern, Bool.not_eq_true', ← Bool.not_eq_true,
    List.contains_iff_mem]

theorem nodup_shown (hnames : c.names.Nodup) (hkeys : (params.map Prod.fst).Nodup) :
    ((c.shown [] (ofTexts .str params) ++ othersOf c.pattern params).map Prod.fst).Nodup := by
  rw [List.map_append, Chain.names_shown, List.nodup_append]
  refine ⟨(List.takeWhile_sublist _).nodup hnames, (List.filter_sublist.map _).nodup hkeys, ?_⟩
  rintro name hname other hother rfl
  obtain ⟨e, he, rfl⟩ := List.mem_map.mp hother
  exact ((mem_othersOf e).mp he).2 ((List.takeWhile_sublist _).subset hname)

/-- What the links give and what the pattern does not name are all parameters but those inside a
link that is not supplied. -/
theorem perm_shown (hnames : c.names.Nodup) (hkeys : (params.map Prod.fst).Nodup) :
    (c.shown [] (ofTexts .str params) ++ othersOf c.pattern params).Perm
      (params.filter fun e => e.1 ∈ c.leading (params.map Prod.fst) ∨ e.1 ∉ c.names) := by
  have hnodup := (nodup_shown hnames hkeys).of_map
  refine (List.perm_ext_iff_of_nodup hnodup (hkeys.of_map.filter _)).mpr fun e => ?_
  rw [List.mem_append, mem_shown hkeys, mem_othersOf, List.mem_filter, ← and_or_left,
    decide_eq_true_iff]

/-- A route along a chain gives back the longest beginning of the chain that is supplied, and all
that its pattern does not name. -/
theorem parse_of_build_chain [CharacterNames]
    (hconditions : optionalMapping? d.conditions = some [])
    (hdefaults : optionalMapping? d.defaults = some []) (hs : d.Resembled cache)
    (hr : (ofDefinition d .standard cache).1 = .ok r) (hpattern : r.pattern = c.source)
    (hc : c.Separated) (hkeys : (params.map Prod.fst).Nodup)
    (hquery : queryParam ∉ params.map Prod.fst)
    (hvalues : ∀ e ∈ params, e.1 ∈ c.names → Allowed.nameRun.holds e.2.toList = true) :
    ∃ path found, r.buildFrom (.mapping (ofTexts .str params)) = .ok path ∧
      r.parse (.str path) (.str r.method) = some found ∧
      found.Perm (ofTexts id (params.filter fun e =>
        e.1 ∈ c.leading (params.map Prod.fst) ∨ e.1 ∉ c.names)) := by
  obtain ⟨hcodec, hnames, hreserved, conditions, h, hfree⟩ :=
    ofDefinition_chain hconditions hs hr hpattern hc
  have hown := defaults_of_free hdefaults hr
  have hnone : named? (ofTexts Value.str params) queryParam = none := by
    rw [named?_ofTexts, lookup_of_notMem hquery]
    rfl
  have hfilled : ∀ name ∈ c.names, isSupplied [] (ofTexts .str params) name = true →
      Allowed.nameRun.holds (emitted [] (ofTexts .str params) name).toList = true :=
    fun name hname => holds_emitted [] hvalues hname
  have hencode := hcodec ▸ encode_others params c
  have hparse := h.parse_built hfree hc hnone (hown ▸ rfl) hencode
    (Query.newline_notMem_encode _) (hown ▸ hfilled)
  rw [hown] at hparse
  have hshown : queryParam ∉ (c.shown [] (ofTexts .str params)).map Prod.fst := by
    rw [Chain.names_shown]
    exact fun hm => hreserved ((List.takeWhile_sublist _).subset hm)
  have hcomplete := complete_queryFields hown hcodec hshown
    ((decode_queryOf (p := c.pattern) hkeys).symm ▸ nodup_shown hnames hkeys)
  rw [decode_queryOf hkeys] at hcomplete
  refine ⟨_, _, ?_, hparse, ?_⟩
  · cases params <;> rfl
  · rw [hcomplete]
    exact (perm_shown hnames hkeys).map _

/-- The link in the middle is not supplied, so the one inside it is lost. A name that is empty is in
the query string. -/
theorem parse_of_build_chain_interrupted : ∃ r path found,
    (ofDefinition ⟨.str "get", .str "a", .str "/a?(/-<x>(.<y>(/<z>)))", .null, .mapping []⟩
        .standard none).1 = .ok r ∧
      r.buildFrom (.mapping [(.str "z", .str "3"), (.str "", .str "é &?"), (.str "x", .str "-1")]) =
        .ok path ∧
      r.parse (.str path) (.str r.method) = some found ∧
      found.Perm [(.str "", "é &?"), (.str "x", "-1")] := by
  obtain ⟨c, hchain⟩ : ∃ c : Chain, c = ⟨"/a?", [⟨"/-", "x"⟩, ⟨".", "y"⟩, ⟨"/", "z"⟩]⟩ := ⟨_, rfl⟩
  have hc : c.Separated := by
    rw [hchain]
    decide
  have hmade : (ofDefinition ⟨.str "get", .str "a", .str "/a?(/-<x>(.<y>(/<z>)))", .null,
      .mapping []⟩ .standard none).1.toOption.map Route.pattern = some c.source := by
    rw [hchain]
    decide +kernel
  have hvalues : ∀ e ∈ [("z", "3"), ("", "é &?"), ("x", "-1")], e.1 ∈ c.names →
      Allowed.nameRun.holds e.2.toList = true := by
    rw [hchain]
    decide
  generalize hr : (ofDefinition _ _ _).1 = result at hmade
  cases result with
  | error e => cases hmade
  | ok r =>
    obtain ⟨path, found, hbuild, hparse, hperm⟩ := parse_of_build_chain rfl rfl
      (Definition.resembled_none _) hr (Option.some.inj hmade) hc (by decide) (by decide) hvalues
    rw [hchain] at hperm
    exact ⟨r, path, found, rfl, hbuild, hparse, hperm⟩

end Texts

end Route

end PathRouting
