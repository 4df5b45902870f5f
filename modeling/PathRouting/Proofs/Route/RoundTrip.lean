import PathRouting.Proofs.Pattern.Inversion
import PathRouting.Proofs.Pattern.Separation
import PathRouting.Proofs.Query.RoundTrip
import PathRouting.Proofs.Route.Construction
import PathRouting.Query.Form

/-!
# Building and parsing a route

A route without conditions and defaults whose parameters are separated gives back all the
parameters that a path was built from: those of the pattern from the only decomposition of the
path, and the others from the query string.
-/
namespace PathRouting

namespace Route

open Pattern

/-- What the parameters of a route without conditions can be. -/
def plainAllowed (name : String) : Allowed := if name = queryParam then .line else .nameRun

def queryFields (query : String) : Captures :=
  if query.isEmpty then [] else [(queryParam, query)]

/-- A route without conditions and defaults, told by the tree of its own pattern. -/
structure Plain (r : Route) (p : Pattern) : Prop where
  upper : Text.upper r.method = r.method
  defaults : r.defaults = []
  codec : r.codec = .standard
  order : r.order = p.names ++ [queryParam]
  distinct : (p.names ++ [queryParam]).Nodup
  run : ∀ path, r.compiled.matcher.run path =
    decompose? plainAllowed (p.parts ++ [queryGroup]) path
  build : ∀ params, r.compiled.builder.build params =
    buildParts [] params (p.parts ++ [queryGroup])

theorem upper_method {v : Value} {method : String} (h : method? v = some method) :
    Text.upper method = method := by
  unfold method? at h
  split at h
  · dsimp only at h
    split_ifs at h with hm
    obtain rfl := Option.some.inj h
    rw [List.contains_iff_mem] at hm
    have hall : ∀ m ∈ routeMethods, Text.upper m = m := by decide
    exact hall _ hm
  · cases h

/-- What a definition without conditions and defaults is compiled as. -/
def plainRequest (pattern : String) : Request :=
  ⟨pattern ++ querySuffix, .mapping [(.str queryParam, .str queryCondition)], .mapping []⟩

theorem plainCondition (name : String) : ∃ value,
    conditionOf (.mapping [(.str queryParam, .str queryCondition)]) name = .ok value ∧
      Allowed.ofCondition? value = some (plainAllowed name) := by
  refine ⟨_, rfl, ?_⟩
  rw [Mapping.named?, Mapping.get?_cons, Value.sameKey_str, plainAllowed]
  by_cases h : name = queryParam
  · subst h
    rfl
  · rw [if_neg h, if_neg (by simpa using Ne.symm h)]
    rfl

theorem ofDefinition_plain [CharacterNames] {d : Definition} {cache : Option Cache} {r : Route}
    {p : Pattern} (hconditions : optionalMapping? d.conditions = some [])
    (hdefaults : optionalMapping? d.defaults = some [])
    (hcache : ∀ c, cache = some c → c.Serves (plainRequest r.pattern))
    (hr : (ofDefinition d .standard cache).1 = .ok r)
    (hp : Pattern.parse none r.pattern = .ok p) : Plain r p := by
  obtain ⟨c, hcheck, hcompile, hroute⟩ := ofDefinition_ok hr
  obtain ⟨hmethod, -, -, conditions, defaults, hc, hd, hcc, hcd⟩ := Definition.check_ok hcheck
  obtain rfl := Option.some.inj (hc.symm.trans hconditions)
  obtain rfl := Option.some.inj (hd.symm.trans hdefaults)
  have hrequest : c.request = plainRequest r.pattern := by
    rw [hroute, Checked.request, hcc, hcd]
    rfl
  rw [hrequest] at hcompile
  obtain ⟨q, m, hq, hm, hcompiled⟩ := Request.compile_ok (compileWith_ok hcache hcompile)
  obtain rfl := Except.ok.inj ((parse_querySuffix hp).symm.trans hq)
  obtain ⟨hnodup, nodes, last, hcomposed, -⟩ := Matcher.ofPattern_ok hm
  have hnames : Segment.namesOf (p.parts ++ [queryGroup]) = p.names ++ [queryParam] :=
    Segment.namesOf_append _ _
  obtain ⟨m', hm', hrun⟩ := Matcher.ofPattern_run hnodup fun name _ => plainCondition name
  obtain rfl := Except.ok.inj (hm.symm.trans hm')
  constructor
  · rw [hroute]
    exact upper_method hmethod
  · rw [hroute]
    exact hcd
  · rw [hroute]
  · rw [order, hcompiled, ← hnames]
    exact hcomposed.names
  · rw [← hnames]
    exact hnodup
  · rw [hcompiled]
    exact hrun
  · rw [hcompiled]
    exact fun _ => rfl

theorem queryGroup_eq :
    queryGroup = .optional [queryParam] [.literal "?", .param queryParam] := by rfl

theorem decomposes_queryGroup {allowed : String → Allowed} {s : List Char} {found : Captures}
    (h : Decomposes allowed [queryGroup] s found) : (s = [] ∧ found = []) ∨
      ∃ query, s = '?' :: query ∧ found = [(queryParam, String.ofList query)] := by
  rw [queryGroup_eq] at h
  cases h with
  | present _ hparts hrest =>
    cases hrest
    cases hparts with
    | literal _ hparam =>
      cases hparam with
      | @param _ query _ _ _ _ hend =>
        cases hend
        exact .inr ⟨query, by simp, rfl⟩
  | absent _ _ hrest =>
    cases hrest
    exact .inl ⟨rfl, rfl⟩

theorem determinate_queryGroup (allowed : String → Allowed) :
    Determinate allowed [queryGroup] := by
  constructor
  · intro s found h
    obtain ⟨rfl, -⟩ | ⟨query, rfl, -⟩ := decomposes_queryGroup h
    · rfl
    · rfl
  · intro s found found' h h'
    obtain ⟨rfl, rfl⟩ | ⟨query, rfl, rfl⟩ := decomposes_queryGroup h
    · obtain ⟨-, rfl⟩ | ⟨query', hs, -⟩ := decomposes_queryGroup h'
      · rfl
      · cases hs
    · obtain ⟨hs, -⟩ | ⟨query', hs, rfl⟩ := decomposes_queryGroup h'
      · cases hs
      · rw [(List.cons.inj hs).2]

theorem buildParts_queryGroup {defaults : Mapping String}
    (hdefault : Mapping.named? defaults queryParam = none) (given : Mapping Value) :
    buildParts defaults given [queryGroup] =
      (givenText? given queryParam).elim "" ("?" ++ ·) := by
  rw [queryGroup_eq, buildParts, buildParts, buildPart, List.any_cons, List.any_nil, Bool.or_false,
    isSupplied, String.append_empty]
  cases hg : givenText? given queryParam with
  | none => rfl
  | some query => simp [hdefault, buildParts, buildPart, hg]

theorem decomposes_marked {query : String} (hline : '\n' ∉ query.toList) :
    Decomposes plainAllowed [queryGroup] (Query.marked query).toList (queryFields query) := by
  rw [Query.marked, queryFields, queryGroup_eq]
  split_ifs
  · exact .absent _ _ .nil
  · have hholds : (plainAllowed queryParam).holds query.toList = true := by
      simpa [plainAllowed, Allowed.holds] using hline
    have hparts : Decomposes plainAllowed [.literal "?", .param queryParam] _ _ :=
      .literal "?" (.param hholds .nil)
    rw [String.ofList_toList] at hparts
    have h := Decomposes.present [queryParam] hparts .nil
    simpa using h

theorem decomposes_query {params : Mapping Value} {query : String}
    (hgiven : givenText? params queryParam = if query.isEmpty then none else some query)
    (hline : '\n' ∉ query.toList) :
    Decomposes plainAllowed [queryGroup] (buildParts [] params [queryGroup]).toList
      (queryFields query) := by
  have hbuilt : buildParts [] params [queryGroup] = Query.marked query := by
    rw [buildParts_queryGroup rfl, hgiven, Query.marked]
    split_ifs <;> rfl
  rw [hbuilt]
  exact decomposes_marked hline

section Parameters

variable {r : Route} {p : Pattern} {params : List (String × String)}

def declaredOf (p : Pattern) (params : List (String × String)) : List (String × String) :=
  params.filter fun e => p.names.contains e.1

def othersOf (p : Pattern) (params : List (String × String)) : List (String × String) :=
  params.filter fun e => !p.names.contains e.1

/-- The query string for the parameters that the pattern does not name. -/
def queryOf (p : Pattern) (params : List (String × String)) : String :=
  Query.encode (Mapping.ofTexts .str (othersOf p params))

def valuesOf (p : Pattern) (params : List (String × String)) : Captures :=
  p.names.map fun name => (name, (params.lookup name).getD "")

theorem fieldsOf_ofTexts (fields : List (String × String)) :
    Query.fieldsOf (Mapping.ofTexts .str fields) = fields := by
  rw [Query.fieldsOf, Mapping.ofTexts, List.filterMap_map]
  exact List.filterMap_some

theorem decode_queryOf (hkeys : (params.map Prod.fst).Nodup) :
    Query.decode (queryOf p params) = othersOf p params := by
  have hnodup : ((othersOf p params).map Prod.fst).Nodup :=
    (List.filter_sublist.map Prod.fst).nodup hkeys
  rw [queryOf, Query.decode_encode, fieldsOf_ofTexts]
  rw [fieldsOf_ofTexts]
  exact hnodup

theorem queryParam_notMem {keep : String × String → Bool}
    (hquery : queryParam ∉ params.map Prod.fst) :
    queryParam ∉ (params.filter keep).map Prod.fst :=
  fun hm => hquery ((List.filter_sublist.map Prod.fst).subset hm)

theorem Plain.partition (h : Plain r p) (hquery : queryParam ∉ params.map Prod.fst) :
    (Mapping.ofTexts Value.str params).partition (fun e => r.declares e.1) =
      (Mapping.ofTexts .str (declaredOf p params), Mapping.ofTexts .str (othersOf p params)) := by
  have hdeclares : ∀ e ∈ params, r.declares (.str e.1) = p.names.contains e.1 := by
    intro e he
    have hne : e.1 ≠ queryParam := fun hk => hquery (hk ▸ List.mem_map_of_mem he)
    rw [declares, h.order, List.contains_eq_mem, List.contains_eq_mem]
    simp [hne]
  have hothers : ∀ e ∈ params, (!r.declares (.str e.1)) = !p.names.contains e.1 := by
    intro e he
    rw [hdeclares e he]
  rw [List.partition_eq_filter_filter, Mapping.ofTexts, List.filter_map, List.filter_map]
  exact congrArg₂ (fun xs ys => (Mapping.ofTexts Value.str xs, Mapping.ofTexts Value.str ys))
    (List.filter_congr hdeclares) (List.filter_congr hothers)

theorem Plain.build_ofTexts (h : Plain r p) (hquery : queryParam ∉ params.map Prod.fst) :
    r.build (Mapping.ofTexts .str params) =
      buildParts [] (Mapping.ofTexts .str (declaredOf p params ++ queryFields (queryOf p params)))
        (p.parts ++ [queryGroup]) := by
  have hnotMem : queryParam ∉ (declaredOf p params).map Prod.fst := queryParam_notMem hquery
  have hencode : r.codec.encode (Mapping.ofTexts .str (othersOf p params)) = queryOf p params := by
    rw [h.codec]
    rfl
  unfold Route.build
  rw [h.partition hquery]
  dsimp only
  rw [hencode, h.build, queryFields]
  split_ifs
  · rw [List.append_nil]
  · rw [Mapping.insert_ofTexts hnotMem]

theorem complete_queryFields (hdefaults : r.defaults = []) (hcodec : r.codec = .standard)
    {found : Captures} {query : String}
    (hfound : queryParam ∉ found.map Prod.fst)
    (hkeys : ((found ++ Query.decode query).map Prod.fst).Nodup) :
    r.complete (found ++ queryFields query) = Mapping.ofTexts id (found ++ Query.decode query) := by
  have hmapping : ∀ fields : Captures, (fields.map fun e => (Value.str e.1, e.2)) =
      Mapping.ofTexts id fields := fun _ => rfl
  unfold Route.complete
  rw [hdefaults, hcodec]
  dsimp only [List.foldl_nil]
  rw [hmapping, Mapping.named?_ofTexts, List.lookup_append, Mapping.lookup_of_notMem hfound,
    queryFields]
  by_cases hq : query.isEmpty = true
  · obtain rfl := String.isEmpty_iff.mp hq
    rfl
  · simp only [if_neg hq, List.lookup_cons_self, Option.none_or, Option.map_some, id]
    rw [Mapping.erase_ofTexts hfound]
    exact Mapping.foldl_insertNew_ofTexts (f := id) hkeys

section Filled

variable (hkeys : (params.map Prod.fst).Nodup)
  (hfilled : ∀ name ∈ p.names, ∃ value, (name, value) ∈ params ∧
    Allowed.nameRun.holds value.toList = true)
include hkeys hfilled

theorem lookup_filled {name : String} (hname : name ∈ p.names) :
    ∃ value, params.lookup name = some value ∧ (name, value) ∈ params ∧
      Allowed.nameRun.holds value.toList = true := by
  obtain ⟨value, hvalue, hholds⟩ := hfilled name hname
  exact ⟨value, Mapping.lookup_of_mem hkeys hvalue, hvalue, hholds⟩

theorem mem_valuesOf (e : String × String) :
    e ∈ valuesOf p params ↔ e ∈ declaredOf p params := by
  rw [valuesOf, declaredOf, List.mem_map, List.mem_filter, List.contains_iff_mem]
  constructor
  · rintro ⟨name, hname, rfl⟩
    obtain ⟨value, hlookup, hvalue, -⟩ := lookup_filled hkeys hfilled hname
    rw [hlookup]
    exact ⟨hvalue, hname⟩
  · rintro ⟨he, hname⟩
    refine ⟨e.1, hname, ?_⟩
    rw [Mapping.lookup_of_mem hkeys he]
    rfl

/-- The values of the pattern's parameters and the other parameters are all there is. -/
theorem perm_params (hnames : p.names.Nodup) :
    (valuesOf p params ++ othersOf p params).Perm params := by
  have hvalues : ((valuesOf p params).map Prod.fst).Nodup := by
    rw [valuesOf, List.map_map]
    exact (List.map_id p.names).symm ▸ hnames
  have hdeclared : (declaredOf p params).Nodup := hkeys.of_map.filter _
  have hperm : (valuesOf p params).Perm (declaredOf p params) :=
    (List.perm_ext_iff_of_nodup hvalues.of_map hdeclared).mpr (mem_valuesOf hkeys hfilled)
  exact (hperm.append_right _).trans (List.filter_append_perm _ params)

theorem Plain.decomposes (h : Plain r p) (hsep : Segment.isSeparated false p.parts = true)
    (hquery : queryParam ∉ params.map Prod.fst) :
    Decomposes plainAllowed (p.parts ++ [queryGroup])
      (r.build (Mapping.ofTexts .str params)).toList
      (valuesOf p params ++ queryFields (queryOf p params)) := by
  have hdeclared : ((declaredOf p params).map Prod.fst).Nodup :=
    (List.filter_sublist.map Prod.fst).nodup hkeys
  rw [h.build_ofTexts hquery, buildParts_append, String.toList_append]
  refine decomposes_built hsep ?_ ?_
  · intro name hname
    obtain ⟨value, hlookup, hvalue, hholds⟩ := lookup_filled hkeys hfilled hname
    have hmem : (name, value) ∈ declaredOf p params :=
      List.mem_filter.mpr ⟨hvalue, List.contains_iff_mem.mpr hname⟩
    have hne : name ≠ queryParam := by
      rintro rfl
      exact hquery (List.mem_map_of_mem hvalue)
    constructor
    · rw [givenText?, Mapping.named?_ofTexts, List.lookup_append,
        Mapping.lookup_of_mem hdeclared hmem, hlookup]
      rfl
    · rw [plainAllowed, if_neg hne, hlookup]
      exact hholds
  · have hnotMem : queryParam ∉ (declaredOf p params).map Prod.fst := queryParam_notMem hquery
    refine decomposes_query ?_ (Query.newline_notMem_encode _)
    rw [givenText?, Mapping.named?_ofTexts, List.lookup_append, Mapping.lookup_of_notMem hnotMem,
      queryFields]
    split_ifs
    · rfl
    · rw [List.lookup_cons_self]
      rfl

end Filled

end Parameters

/-- A route that keeps its parameters apart gives back what a path was built from, also what its
pattern does not name. -/
theorem parse_of_build [CharacterNames] {d : Definition} {cache : Option Cache} {r : Route}
    {p : Pattern}
    {params : List (String × String)} (hconditions : optionalMapping? d.conditions = some [])
    (hdefaults : optionalMapping? d.defaults = some [])
    (hcache : ∀ c, cache = some c → c.Serves (plainRequest r.pattern))
    (hr : (ofDefinition d .standard cache).1 = .ok r)
    (hp : Pattern.parse none r.pattern = .ok p)
    (hsep : Segment.isSeparated false p.parts = true) (hkeys : (params.map Prod.fst).Nodup)
    (hquery : queryParam ∉ params.map Prod.fst)
    (hfilled : ∀ name ∈ p.names, ∃ value, (name, value) ∈ params ∧
      Allowed.nameRun.holds value.toList = true) :
    ∃ path found, r.buildFrom (.mapping (params.map fun e => (.str e.1, .str e.2))) = .ok path ∧
      r.parse (.str path) (.str r.method) = some found ∧
      found.Perm (params.map fun e => (.str e.1, e.2)) := by
  have h := ofDefinition_plain hconditions hdefaults hcache hr hp
  obtain ⟨hnames, -, hdistinct⟩ := List.nodup_append.mp h.distinct
  have hne : ∀ name ∈ p.names, name ≠ queryParam := fun name hname =>
    hdistinct name hname queryParam (List.mem_singleton_self _)
  have hall : ∀ name ∈ Segment.namesOf p.parts, plainAllowed name = .nameRun :=
    fun name hname => if_neg (hne name hname)
  -- the path has one decomposition only, so the order of the search does not matter
  have hrun := (h.run _).trans ((determinate_queryGroup plainAllowed).decompose_eq_some hsep hall
    (h.decomposes hkeys hfilled hsep hquery))
  have hperm := perm_params hkeys hfilled hnames
  have hvalues : queryParam ∉ (valuesOf p params).map Prod.fst := by
    rw [valuesOf, List.map_map, List.mem_map]
    rintro ⟨name, hname, he⟩
    exact hne name hname he
  have hnodup : ((valuesOf p params ++ Query.decode (queryOf p params)).map Prod.fst).Nodup := by
    rw [decode_queryOf hkeys]
    exact (hperm.map Prod.fst).nodup_iff.mpr hkeys
  refine ⟨r.build (Mapping.ofTexts .str params),
    r.complete (valuesOf p params ++ queryFields (queryOf p params)), ?_, ?_, ?_⟩
  · cases params <;> rfl
  · rw [parse, h.upper, if_pos rfl, hrun]
    rfl
  · rw [complete_queryFields h.defaults h.codec hvalues hnodup, decode_queryOf hkeys]
    exact hperm.map _

/-- The literal texts go on where values stop, and hold marks of query strings and of regular
expressions. -/
theorem parse_of_build_leftovers : ∃ r path found,
    (ofDefinition ⟨.str "get", .str "files", .str "/f?&<x>b.*<y>2_x", .null, .mapping []⟩ .standard
        (some (Cache.empty 1 .unlimited true))).1 = .ok r ∧
      r.buildFrom (.mapping [(.str "z", .str "é &"), (.str "y", .str "2"), (.str "x", .str "1-b"),
        (.str "", .str "")]) = .ok path ∧
      r.parse (.str path) (.str r.method) = some found ∧
      found.Perm [(.str "z", "é &"), (.str "y", "2"), (.str "x", "1-b"), (.str "", "")] := by
  have hmade : (ofDefinition ⟨.str "get", .str "files", .str "/f?&<x>b.*<y>2_x", .null,
      .mapping []⟩ .standard (some (Cache.empty 1 .unlimited true))).1.toOption.map Route.pattern =
        some "/f?&<x>b.*<y>2_x" := by decide +kernel
  have hcache : ∀ request c, some (Cache.empty 1 .unlimited true) = some c → c.Serves request := by
    intro request c hc
    obtain rfl := Option.some.inj hc
    exact nofun
  have hp : Pattern.parse none "/f?&<x>b.*<y>2_x" = .ok ⟨"/f?&<x>b.*<y>2_x", [.literal "/f?&",
      .param "x", .literal "b.*", .param "y", .literal "2_x"], none⟩ := by rfl
  have hfilled : ∀ name ∈ ["x", "y"], ∃ value,
      (name, value) ∈ [("z", "é &"), ("y", "2"), ("x", "1-b"), ("", "")] ∧
        Allowed.nameRun.holds value.toList = true := by
    intro name hname
    rcases List.mem_pair.mp hname with rfl | rfl
    · exact ⟨"1-b", by decide, by decide⟩
    · exact ⟨"2", by decide, by decide⟩
  have hsep : Segment.isSeparated false [.literal "/f?&", .param "x", .literal "b.*", .param "y",
      .literal "2_x"] = true := by decide
  generalize hr : (ofDefinition _ _ _).1 = result at hmade
  cases result with
  | error e => cases hmade
  | ok r =>
    rw [← Option.some.inj hmade] at hp
    obtain ⟨path, found, h⟩ := parse_of_build rfl rfl (hcache _) hr hp hsep (by decide)
      (by decide) hfilled
    exact ⟨r, path, found, rfl, h⟩

end Route

end PathRouting
