import PathRouting.Proofs.Route.Chain
import PathRouting.Proofs.Route.Completion

/-!
# Links that are left out for their defaults

A link whose value is its default is left out with all links inside it. Reading the path restores
its own default only, so a value inside it comes back if it is a default as well.
-/
namespace PathRouting

open Pattern Mapping

namespace Route

variable {d : Definition} {codec : Codec} {cache : Option Cache} {r : Route} {c : Chain}
  {params defaults : List (String × String)}

theorem defaults_of_texts [CharacterNames] {defaults : List (String × String)}
    (hdefaults : d.defaults.Holds (Request.textual defaults))
    (hr : (ofDefinition d codec cache).1 = .ok r) : r.defaults = ofTexts id defaults := by
  obtain ⟨-, es, -, hd, -, hown⟩ := mappings_of_ofDefinition hr
  obtain rfl := optionalMapping?_holds hdefaults hd
  rw [hown, Request.mapValues_textual]

/-- Around a link that is supplied all links are, if the links of a beginning of the chain are. -/
theorem mem_of_outer {names outer inner : List String} {name : String} {j : Nat}
    (hnames : names.Nodup) (hsplit : names = outer ++ name :: inner) (h : name ∈ names.take j) :
    ∀ other ∈ outer, other ∈ names.take j := by
  rw [hsplit, List.nodup_append] at hnames
  have hnew : name ∉ outer := fun hm =>
    hnames.2.2 name hm name (List.mem_cons_self ..) rfl
  rw [hsplit, List.take_append] at h ⊢
  have hlong : outer.length ≤ j := by
    by_contra hshort
    have hzero : j - outer.length = 0 := by omega
    rw [hzero, List.take_zero, List.append_nil] at h
    exact hnew (List.mem_of_mem_take h)
  intro other hother
  rw [List.take_of_length_le hlong]
  exact List.mem_append_left _ hother

/-- What stands under a name of the chain after a path without a query string was read. -/
theorem named?_complete_shown {defaults : List (String × String)}
    (hown : r.defaults = ofTexts id defaults) (hnames : c.names.Nodup)
    (hreserved : queryParam ∉ c.names) (hdefault : defaults.lookup queryParam = none)
    (given : Mapping Value) {name : String} (hname : name ≠ queryParam) :
    named? (r.complete (c.shown r.defaults given)) name =
      if name ∈ c.reached r.defaults given then some (emitted r.defaults given name)
      else defaults.lookup name := by
  have hquery : queryParam ∉ c.reached r.defaults given := fun hm =>
    hreserved ((List.takeWhile_sublist _).subset hm)
  have hnone : r.queryText? (c.shown r.defaults given) = none := by
    rw [queryText?, Chain.lookup_shown hnames, if_neg hquery, hown, named?_ofTexts, hdefault]
    rfl
  have hkey : Value.str name ≠ .str queryParam := fun he => hname (Value.str.inj he)
  have hdecoded : r.decoded (c.shown r.defaults given) = [] := by rw [decoded, hnone]
  rw [named?, get?_complete r _ hkey, hdecoded, ← named?, ← named?, named?_ofTexts, Option.map_id,
    id, Chain.lookup_shown hnames, hown, named?_ofTexts, Option.map_id, id]
  split_ifs
  · rfl
  · exact (Option.or_none).trans (Option.none_or)

theorem isSupplied_iff_of_mem {name : String} (h : name ∈ params.map Prod.fst) :
    isSupplied (ofTexts id defaults) (ofTexts .str params) name = true ↔
      defaults.lookup name ≠ params.lookup name := by
  obtain ⟨value, hvalue⟩ := exists_lookup_iff.mpr h
  rw [isSupplied_ofTexts_iff, hvalue]
  constructor
  · rintro ⟨other, he, hne⟩
    rwa [he]
  · intro hne
    exact ⟨value, rfl, hne⟩

theorem named?_complete_shown_iff {j : Nat} (hown : r.defaults = ofTexts id defaults)
    (hnames : c.names.Nodup) (hreserved : queryParam ∉ c.names)
    (hdefault : defaults.lookup queryParam = none)
    (hsupplied : (params.map Prod.fst).Perm (c.names.take j)) {outer inner : List String}
    {name : String} (hsplit : c.names = outer ++ name :: inner)
    (hname : name ∈ params.map Prod.fst) :
    named? (r.complete (c.shown r.defaults (ofTexts .str params))) name = params.lookup name ↔
      defaults.lookup name = params.lookup name ∨
        ∀ other ∈ outer, defaults.lookup other ≠ params.lookup other := by
  have hmem : name ∈ c.names.take j := hsupplied.mem_iff.mp hname
  have hne : name ≠ queryParam := ne_of_mem_of_not_mem (List.mem_of_mem_take hmem) hreserved
  have houter : ∀ other ∈ outer, isSupplied (ofTexts id defaults) (ofTexts .str params) other =
      true ↔ defaults.lookup other ≠ params.lookup other := fun other ho =>
    isSupplied_iff_of_mem (hsupplied.mem_iff.mpr (mem_of_outer hnames hsplit hmem other ho))
  have hreached : name ∈ c.reached (ofTexts id defaults) (ofTexts .str params) ↔
      (∀ other ∈ outer, isSupplied (ofTexts id defaults) (ofTexts .str params) other = true) ∧
        isSupplied (ofTexts id defaults) (ofTexts .str params) name = true :=
    Chain.mem_reached_iff hnames hsplit
  rw [isSupplied_iff_of_mem hname] at hreached
  rw [named?_complete_shown hown hnames hreserved hdefault _ hne, hown]
  by_cases hr : name ∈ c.reached (ofTexts id defaults) (ofTexts .str params)
  · obtain ⟨hall, -⟩ := hreached.mp hr
    obtain ⟨value, hvalue⟩ := exists_lookup_iff.mpr hname
    rw [if_pos hr, emitted, givenText_ofTexts, hvalue]
    constructor
    · intro _
      exact .inr fun other ho => (houter other ho).mp (hall other ho)
    · intro _
      rfl
  · rw [if_neg hr]
    constructor
    · exact .inl
    · rintro (hsame | hall)
      · exact hsame
      · by_contra hdiffer
        exact hr (hreached.mpr ⟨fun other ho => (houter other ho).mpr (hall other ho), hdiffer⟩)

/-- A link that is supplied gets back its value if and only if the value is the default, or no link
around it was left out because of its own default. -/
theorem parse_of_build_defaults [CharacterNames] {j : Nat}
    (hconditions : optionalMapping? d.conditions = some [])
    (hdefaults : d.defaults.Holds (Request.textual defaults)) (hs : d.Resembled cache)
    (hr : (ofDefinition d codec cache).1 = .ok r) (hcodec : codec.encode [] = "")
    (hpattern : r.pattern = c.source) (hc : c.Separated)
    (hdeclared : ∀ name ∈ defaults.map Prod.fst, name ∈ c.names)
    (hsupplied : (params.map Prod.fst).Perm (c.names.take j))
    (hvalues : ∀ e ∈ params, Allowed.nameRun.holds e.2.toList = true) :
    ∃ path found, r.buildFrom (.mapping (ofTexts .str params)) = .ok path ∧
      r.parse (.str path) (.str r.method) = some found ∧
      ∀ outer name inner, c.names = outer ++ name :: inner → name ∈ params.map Prod.fst →
        (named? found name = params.lookup name ↔
          defaults.lookup name = params.lookup name ∨
            ∀ other ∈ outer, defaults.lookup other ≠ params.lookup other) := by
  obtain ⟨rfl, hnames, hreserved, conditions, h, hfree⟩ :=
    ofDefinition_chain hconditions hs hr hpattern hc
  have hown := defaults_of_texts hdefaults hr
  have hkeys : ∀ name ∈ params.map Prod.fst, name ∈ c.names := fun name hname =>
    List.mem_of_mem_take (hsupplied.mem_iff.mp hname)
  have hdefault : defaults.lookup queryParam = none :=
    lookup_of_notMem fun hm => hreserved (hdeclared _ hm)
  have hquery : named? (ofTexts Value.str params) queryParam = none := by
    rw [named?_ofTexts, lookup_of_notMem fun hm => hreserved (hkeys _ hm)]
    rfl
  have hothers : (ofTexts Value.str params).filter (fun e => !c.pattern.declares e.1) = [] := by
    rw [List.filter_eq_nil_iff]
    intro e he
    obtain ⟨own, hmem, rfl⟩ := List.mem_map.mp he
    simp [Pattern.declares, c.names_pattern, hkeys own.1 (List.mem_map_of_mem hmem)]
  have hencode : r.codec.encode ((ofTexts Value.str params).filter fun e =>
      !c.pattern.declares e.1) = "" := by rw [hothers, hcodec]
  have hfilled : ∀ name ∈ c.names,
      isSupplied (ofTexts id defaults) (ofTexts .str params) name = true →
        Allowed.nameRun.holds
          (emitted (ofTexts id defaults) (ofTexts .str params) name).toList = true :=
    fun name hname => holds_emitted defaults (fun e he _ => hvalues e he) hname
  have hunset : named? r.defaults queryParam = none := by
    rw [hown, named?_ofTexts, hdefault]
    rfl
  have hparse := h.parse_built hfree hc hquery hunset hencode (by decide) (hown ▸ hfilled)
  have hnone : queryFields "" = [] := rfl
  rw [hnone, List.append_nil] at hparse
  refine ⟨_, _, ?_, hparse, ?_⟩
  · cases params <;> rfl
  · intro outer name inner hsplit hname
    exact named?_complete_shown_iff hown hnames hreserved hdefault hsupplied hsplit hname

/-- The value in the middle is its default. It comes back, and the one inside it does not. -/
theorem parse_of_build_defaults_middle : ∃ r path found,
    (ofDefinition ⟨.str "put", .str "a", .str "/a(/<x>(/<y>(.<z>)))", .null,
        .mapping [(.str "y", .str "2")]⟩ .standard none).1 = .ok r ∧
      r.buildFrom (.mapping [(.str "z", .str "7"), (.str "x", .str "-5"), (.str "y", .str "2")]) =
        .ok path ∧
      r.parse (.str path) (.str r.method) = some found ∧
      named? found "x" = some "-5" ∧ named? found "y" = some "2" ∧ named? found "z" ≠ some "7" := by
  obtain ⟨c, hchain⟩ : ∃ c : Chain, c = ⟨"/a", [⟨"/", "x"⟩, ⟨"/", "y"⟩, ⟨".", "z"⟩]⟩ := ⟨_, rfl⟩
  have hnames : c.names = ["x", "y", "z"] := hchain ▸ rfl
  have hc : c.Separated := by
    rw [hchain]
    decide
  have hmade : (ofDefinition ⟨.str "put", .str "a", .str "/a(/<x>(/<y>(.<z>)))", .null,
      .mapping [(.str "y", .str "2")]⟩ .standard none).1.toOption.map Route.pattern =
        some c.source := by
    rw [hchain]
    decide +kernel
  have hdeclared : ∀ name ∈ [("y", "2")].map Prod.fst, name ∈ c.names := by
    rw [hnames]
    decide
  have hsupplied : ([("z", "7"), ("x", "-5"), ("y", "2")].map Prod.fst).Perm (c.names.take 3) := by
    rw [hnames]
    decide
  generalize hr : (ofDefinition _ _ _).1 = result at hmade
  cases result with
  | error e => cases hmade
  | ok r =>
    obtain ⟨path, found, hbuild, hparse, hread⟩ := parse_of_build_defaults rfl
      ⟨.inr rfl, by decide⟩ (Definition.resembled_none _) hr rfl (Option.some.inj hmade) hc
      hdeclared hsupplied (by decide)
    have hx := hread [] "x" ["y", "z"] hnames (by decide)
    have hy := hread ["x"] "y" ["z"] hnames (by decide)
    have hz := hread ["x", "y"] "z" [] hnames (by decide)
    exact ⟨r, path, found, rfl, hbuild, hparse, hx.mpr (by decide), hy.mpr (by decide),
      fun he => absurd (hz.mp he) (by decide)⟩

/-- The outer value is its default, so the whole chain is left out and the inner value is lost. -/
theorem parse_of_build_defaults_lost : ∃ c : Chain, ∃ r path found,
    c = ⟨"/a", [⟨"/", "x"⟩, ⟨"/", "y"⟩]⟩ ∧ c.Separated ∧
      (ofDefinition ⟨.str "GET", .str "a", .str c.source, .null, .mapping [(.str "x", .str "1")]⟩
        .standard none).1 = .ok r ∧
      r.buildFrom (.mapping [(.str "x", .str "1"), (.str "y", .str "2")]) = .ok path ∧
      r.parse (.str path) (.str r.method) = some found ∧ named? found "y" = none := by
  have hc : Chain.Separated ⟨"/a", [⟨"/", "x"⟩, ⟨"/", "y"⟩]⟩ := by decide
  have hmade : ((ofDefinition ⟨.str "GET", .str "a",
      .str (Chain.source ⟨"/a", [⟨"/", "x"⟩, ⟨"/", "y"⟩]⟩), .null,
      .mapping [(.str "x", .str "1")]⟩ .standard none).1.toOption.bind fun r =>
        (r.parse (.str (r.build [(.str "x", .str "1"), (.str "y", .str "2")]))
          (.str r.method)).map fun found => named? found "y") = some none := by decide +kernel
  generalize hr : (ofDefinition _ _ _).1 = result at hmade
  cases result with
  | error e => cases hmade
  | ok r =>
    obtain ⟨found, hparse, hnone⟩ := Option.map_eq_some_iff.mp hmade
    exact ⟨_, r, _, found, rfl, hc, hr, rfl, hparse, hnone⟩

end Route

end PathRouting
