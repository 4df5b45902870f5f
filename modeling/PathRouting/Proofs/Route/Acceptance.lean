import PathRouting.Proofs.Route.Making

/-!
# Built paths are accepted

A route accepts every path that it has built with text its conditions allow, whatever groups were
rendered and whatever went into the query string. The conditions list values or there are none.
-/
namespace PathRouting

open Pattern Mapping

/-- A codec that writes query strings without line feeds. -/
def Codec.WritesLines (codec : Codec) : Prop := ∀ params, '\n' ∉ (codec.encode params).toList

theorem Codec.standard_writesLines : standard.WritesLines := Query.newline_notMem_encode

namespace Route

variable {r : Route} {p : Pattern} {params : Mapping Value}

def condition (r : Route) (name : String) : Value := (named? r.conditions name).getD .null

/-- What the condition on a parameter allows, if it lists values or there is none. -/
def allowed (r : Route) (name : String) : Allowed :=
  (Allowed.ofCondition? (r.condition name)).getD .nameRun

/-- No parameter of the pattern has an expression of a user's own for its condition. -/
def Listed (r : Route) (p : Pattern) : Prop :=
  ∀ name ∈ p.names, (Allowed.ofCondition? (r.condition name)).isSome = true

namespace Made

variable [CharacterNames]

theorem allowed_queryParam (h : r.Made p) : r.allowed queryParam = .line := by
  rw [Route.allowed, condition, h.query]
  rfl

theorem run (h : r.Made p) (hl : r.Listed p) (path : String) :
    r.compiled.matcher.run path = decompose? r.allowed (p.parts ++ [queryGroup]) path := by
  obtain ⟨hnodup, -⟩ := Matcher.ofPattern_ok h.matcher
  have hc : ∀ name ∈ Segment.namesOf (p.parts ++ [queryGroup]), ∃ value,
      conditionOf (.mapping r.conditions) name = .ok value ∧
        Allowed.ofCondition? value = some (r.allowed name) := by
    intro name hname
    refine ⟨r.condition name, conditionOf_mapping r.conditions name, ?_⟩
    rw [Segment.namesOf_append, List.mem_append] at hname
    rcases hname with hname | hname
    · obtain ⟨a, ha⟩ := Option.isSome_iff_exists.mp (hl name hname)
      rw [Route.allowed, ha, Option.getD_some]
    · obtain rfl := List.mem_singleton.mp hname
      rw [h.allowed_queryParam, condition, h.query]
      rfl
  obtain ⟨m, hm, hrun⟩ := Matcher.ofPattern_run hnodup hc
  obtain rfl := Except.ok.inj (h.matcher.symm.trans hm)
  exact hrun path

theorem parse_eq (h : r.Made p) (hl : r.Listed p) (path : String) :
    r.parse (.str path) (.str r.method) =
      (decompose? r.allowed (p.parts ++ [queryGroup]) path).map r.complete := by
  rw [parse, h.upper, if_pos rfl, h.run hl]

/-- What the builder of a route is given under a name of the pattern is what the route is given,
and the query string holds what the pattern does not name. -/
theorem build_eq (h : r.Made p) (hquery : named? params queryParam = none) :
    ∃ given, r.build params = buildParts r.defaults given (p.parts ++ [queryGroup]) ∧
      (∀ name ∈ p.names, named? params name = named? given name) ∧
      ∀ text, givenText? given queryParam = some text →
        ∃ others, text = r.codec.encode others := by
  have hdeclared : ∀ name ∈ p.names ++ [queryParam],
      named? (params.partition fun e => r.declares e.1).1 name = named? params name :=
    fun _ hname => h.named?_declared params hname
  have hlast : named? (params.partition fun e => r.declares e.1).1 queryParam = none :=
    (hdeclared queryParam (by simp)).trans hquery
  unfold Route.build
  generalize params.partition (fun e => r.declares e.1) = split at hdeclared hlast ⊢
  obtain ⟨declared, others⟩ := split
  dsimp only at hdeclared hlast ⊢
  rw [h.build]
  refine ⟨_, rfl, ?_, ?_⟩
  · intro name hname
    rw [← hdeclared name (List.mem_append_left _ hname)]
    split_ifs
    · rfl
    · rw [named?_insert_of_ne _ (h.ne_queryParam hname)]
  · intro text htext
    split_ifs at htext with hempty
    · rw [givenText?, hlast] at htext
      cases htext
    · rw [givenText?, named?_insert_self] at htext
      exact ⟨others, (Option.some.inj htext).symm⟩

theorem isFilled_queryGroup (h : r.Made p) {given : Mapping Value}
    (hline : ∀ text, givenText? given queryParam = some text → '\n' ∉ text.toList) :
    isFilled r.allowed r.defaults given [queryGroup] = true := by
  rw [queryGroup_eq]
  simp only [isFilled, isFilledPart, List.any_cons, List.any_nil, Bool.or_false, Bool.and_true,
    Bool.true_and, Bool.or_eq_true, Bool.not_eq_true']
  cases hg : givenText? given queryParam with
  | none =>
    left
    rw [isSupplied, hg]
  | some text =>
    right
    rw [emitted, hg, Option.getD_some, h.allowed_queryParam]
    simpa [Allowed.holds] using hline text hg

end Made

/-- Every path that a route has built with text its conditions allow is accepted, whatever went
into the query string. -/
theorem parse_of_filled [CharacterNames] {d : Definition} {codec : Codec} {cache : Option Cache}
    (hu : d.Unaffected cache) (hr : (ofDefinition d codec cache).1 = .ok r)
    (hp : Pattern.parse none r.pattern = .ok p) (hl : r.Listed p) (hlines : codec.WritesLines)
    (hquery : named? params queryParam = none)
    (hfilled : isFilled r.allowed r.defaults params p.parts = true) :
    ∃ path found, r.buildFrom (.mapping params) = .ok path ∧
      r.parse (.str path) (.str r.method) = some found := by
  obtain ⟨hcodec, q, h⟩ := ofDefinition_made hu hr
  obtain rfl := h.eq hp
  obtain ⟨given, hbuild, hnames, htext⟩ := h.build_eq hquery
  have hown : isFilled r.allowed r.defaults given p.parts = true := by
    rw [← hfilled]
    exact (isFilled_congr (parse_sound hp).2.2.2 hnames).symm
  have hgroup : isFilled r.allowed r.defaults given [queryGroup] = true := by
    refine h.isFilled_queryGroup fun text hg => ?_
    obtain ⟨others, rfl⟩ := htext text hg
    rw [hcodec]
    exact hlines others
  obtain ⟨found, hfound⟩ := decomposes_filled (isFilled_append hown hgroup)
  refine ⟨r.build params, ?_⟩
  cases hrun : decompose? r.allowed (p.parts ++ [queryGroup]) (r.build params) with
  | none =>
    rw [hbuild] at hrun
    exact absurd hfound (decompose_eq_none_iff.mp hrun found)
  | some captured =>
    refine ⟨r.complete captured, ?_, ?_⟩
    · cases params <;> rfl
    · rw [h.parse_eq hl, hrun]
      rfl

/-- A number stands for one of the values that are listed, a group whose parameter has its default
is left out with what is in it, and a line feed goes into the query string. -/
theorem parse_of_filled_leftovers : ∃ r path found,
    (ofDefinition ⟨.str "get", .str "page", .str "/<x>(/<y>(-<z>)/)(<w>)",
        .mapping [(.str "y", .list [.int 10, .str "b"])], .mapping [(.str "w", .str "1")]⟩
        .standard none).1 = .ok r ∧
      r.buildFrom (.mapping [(.str "x", .str "a-b"), (.str "y", .int 10), (.str "w", .int 1),
        (.str "q", .str "é\n")]) = .ok path ∧
      r.parse (.str path) (.str r.method) = some found := by
  have hmade : (ofDefinition ⟨.str "get", .str "page", .str "/<x>(/<y>(-<z>)/)(<w>)",
      .mapping [(.str "y", .list [.int 10, .str "b"])], .mapping [(.str "w", .str "1")]⟩
      .standard none).1.toOption.isSome = true := by decide +kernel
  generalize hr : (ofDefinition _ _ _).1 = result at hmade
  cases result with
  | error e => cases hmade
  | ok r =>
    obtain ⟨c, hc, -, hroute⟩ := ofDefinition_ok hr
    obtain rfl := Except.ok.inj hc
    have hpattern : r.pattern = "/<x>(/<y>(-<z>)/)(<w>)" := by rw [hroute]
    have hdefaults : r.defaults = [(.str "w", "1")] := by rw [hroute]; rfl
    have hcondition : r.condition = fun name => (named? [(.str "y", .list [.int 10, .str "b"]),
        (.str queryParam, .str queryCondition)] name).getD .null := by
      rw [funext_iff]
      intro name
      rw [condition, hroute]
      rfl
    have hallowed : r.allowed = fun name => (Allowed.ofCondition?
        ((named? [(.str "y", .list [.int 10, .str "b"]), (.str queryParam, .str queryCondition)]
          name).getD .null)).getD .nameRun := by
      rw [funext_iff]
      intro name
      rw [allowed, hcondition]
    have hp : Pattern.parse none r.pattern = .ok ⟨"/<x>(/<y>(-<z>)/)(<w>)",
        [.literal "/", .param "x", .optional ["y"] [.literal "/", .param "y",
          .optional ["z"] [.literal "-", .param "z"], .literal "/"],
          .optional ["w"] [.param "w"]], none⟩ := by
      rw [hpattern]
      rfl
    have hl : ∀ name ∈ ["x", "y", "z", "w"],
        (Allowed.ofCondition? (r.condition name)).isSome = true := by
      rw [hcondition]
      decide
    have hfilled : isFilled r.allowed r.defaults [(.str "x", .str "a-b"), (.str "y", .int 10),
        (.str "w", .int 1), (.str "q", .str "é\n")]
        [.literal "/", .param "x", .optional ["y"] [.literal "/", .param "y",
          .optional ["z"] [.literal "-", .param "z"], .literal "/"],
          .optional ["w"] [.param "w"]] = true := by
      rw [hallowed, hdefaults]
      decide
    obtain ⟨path, found, h⟩ := parse_of_filled (Definition.unaffected_none _) hr hp hl
      Codec.standard_writesLines rfl hfilled
    exact ⟨r, path, found, rfl, h⟩

/-- The absent value and the text that it looks like are one condition to a cache. So a route
without a condition can be given the matcher of another one, which refuses what the route builds. -/
theorem parse_of_filled_look_alike : ∃ r p path,
    (ofDefinition ⟨.str "GET", .str "b", .str "/a/<x>", .mapping [(.str "x", .null)], .null⟩
        .standard (ofDefinition ⟨.str "GET", .str "a", .str "/a/<x>",
          .mapping [(.str "x", .str "None")], .null⟩ .standard
            (some (Cache.empty 1000 .unlimited true))).2).1 = .ok r ∧
      Pattern.parse none r.pattern = .ok p ∧ r.Listed p ∧
      isFilled r.allowed r.defaults [(.str "x", .str "5")] p.parts = true ∧
      r.buildFrom (.mapping [(.str "x", .str "5")]) = .ok path ∧
      r.parse (.str path) (.str r.method) = none := by
  have hmade : ((ofDefinition ⟨.str "GET", .str "b", .str "/a/<x>", .mapping [(.str "x", .null)],
      .null⟩ .standard (ofDefinition ⟨.str "GET", .str "a", .str "/a/<x>",
        .mapping [(.str "x", .str "None")], .null⟩ .standard
          (some (Cache.empty 1000 .unlimited true))).2).1.toOption.map fun r =>
        (r.pattern, Allowed.ofCondition? (r.condition "x"),
          isFilled r.allowed r.defaults [(.str "x", .str "5")] [.literal "/a/", .param "x"],
          r.buildFrom (.mapping [(.str "x", .str "5")]) |>.toOption,
          (r.parse (.str "/a/5") (.str r.method)).isSome)) =
      some ("/a/<x>", some .nameRun, true, some "/a/5", false) := by decide +kernel
  generalize hr : (ofDefinition _ _ _).1 = result at hmade
  cases result with
  | error e => cases hmade
  | ok r =>
    obtain ⟨hpattern, hcondition, hfilled, hbuilt, hparse⟩ := by
      simpa only [Prod.mk.injEq] using Option.some.inj hmade
    refine ⟨r, ⟨"/a/<x>", [.literal "/a/", .param "x"], none⟩, "/a/5", rfl, ?_, ?_, hfilled, ?_,
      Option.not_isSome_iff_eq_none.mp (by simp [hparse])⟩
    · rw [hpattern]
      rfl
    · intro name hname
      obtain rfl := List.mem_singleton.mp hname
      rw [hcondition]
      rfl
    · cases hb : r.buildFrom (.mapping [(.str "x", .str "5")]) with
      | error e =>
        rw [hb] at hbuilt
        cases hbuilt
      | ok path =>
        rw [hb] at hbuilt
        exact congrArg Except.ok (Option.some.inj hbuilt)

end Route

end PathRouting
