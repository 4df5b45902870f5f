import PathRouting.Proofs.Pattern.Marking
import PathRouting.Proofs.Route.Reserved
import PathRouting.Proofs.Route.Resemblance

/-!
# Paths with a query string behind them

Behind a path that a route accepts any query string of one line is accepted. Where the route itself
has no use for question marks, the path gives what it gave before, and the query string adds what is
not there yet.
-/
namespace PathRouting

open Pattern Mapping

namespace Route

variable {allowed : String → Allowed} {parts : List Segment} {s query : List Char}
  {found : Captures}

/-! ## The last group of the tree -/

/-- What the text that the pattern itself leaves over gives as a query string. -/
def suffix? (s : List Char) : Option Captures :=
  match s with
  | [] => some []
  | '?' :: query =>
    if query.contains '\n' then none else some [(queryParam, String.ofList query)]
  | _ => none

theorem suffix_query (h : '\n' ∉ query) :
    suffix? ('?' :: query) = some [(queryParam, String.ofList query)] := by
  rw [suffix?, if_neg (by simpa using h)]

theorem suffix_eq_some_iff : suffix? s = some found ↔ (s = [] ∧ found = []) ∨
    ∃ query, s = '?' :: query ∧ '\n' ∉ query ∧ found = [(queryParam, String.ofList query)] := by
  constructor
  · intro h
    unfold suffix? at h
    split at h
    · exact .inl ⟨rfl, (Option.some.inj h).symm⟩
    · rename_i query
      split_ifs at h with hline
      exact .inr ⟨query, rfl, by simpa using hline, (Option.some.inj h).symm⟩
    · cases h
  · rintro (⟨rfl, rfl⟩ | ⟨query, rfl, hline, rfl⟩)
    · rfl
    · exact suffix_query hline

theorem decomposes_queryGroup_iff (hq : allowed queryParam = .line) :
    Decomposes allowed [queryGroup] s found ↔ suffix? s = some found := by
  have hholds : ∀ {query : List Char},
      (allowed queryParam).holds query = true ↔ '\n' ∉ query := by
    intro query
    simp [hq, Allowed.holds]
  rw [suffix_eq_some_iff, queryGroup_eq]
  constructor
  · intro h
    cases h with
    | present _ hparts hrest =>
      cases hrest
      cases hparts with
      | literal _ hparam =>
        cases hparam with
        | @param _ query _ _ _ hh hend =>
          cases hend
          exact .inr ⟨query, by simp, hholds.mp hh, rfl⟩
    | absent _ _ hrest =>
      cases hrest
      exact .inl ⟨rfl, rfl⟩
  · rintro (⟨rfl, rfl⟩ | ⟨query, rfl, hline, rfl⟩)
    · exact .absent _ _ .nil
    · have hparts : Decomposes allowed [.literal "?", .param queryParam]
          ("?".toList ++ (query ++ [])) [(queryParam, String.ofList query)] :=
        .literal "?" (.param (hholds.mpr hline) .nil)
      have h := Decomposes.present [queryParam] hparts .nil
      simpa using h

theorem decompose_queryGroup (hq : allowed queryParam = .line) (path : String) :
    decompose? allowed (parts ++ [queryGroup]) path =
      (waysOf allowed parts path.toList).findSome? fun way =>
        (suffix? way.2).map (way.1 ++ ·) := by
  have hlast : ∀ s : List Char,
      ((waysOf allowed [queryGroup] s).find? fun way => way.2.isEmpty).map Prod.fst =
        suffix? s := by
    intro s
    have hd : decompose? allowed [queryGroup] (String.ofList s) =
        ((waysOf allowed [queryGroup] s).find? fun way => way.2.isEmpty).map Prod.fst := by
      rw [decompose?, String.toList_ofList]
    rw [← hd]
    cases hf : decompose? allowed [queryGroup] (String.ofList s) with
    | none =>
      rw [decompose_eq_none_iff, String.toList_ofList] at hf
      refine (Option.eq_none_iff_forall_ne_some.mpr fun found hs => ?_).symm
      exact hf found ((decomposes_queryGroup_iff hq).mpr hs)
    | some found =>
      have hsound := decompose_sound hf
      rw [String.toList_ofList] at hsound
      exact ((decomposes_queryGroup_iff hq).mp hsound).symm
  rw [decompose?, waysOf_append, List.find?_flatMap, List.map_findSome?]
  congr 1
  funext way
  rw [← hlast, Function.comp_apply, List.find?_map, Option.map_map, Option.map_map]
  rfl

/-! ## Another query string -/

theorem suffix_append (h : '?' ∉ s) (hline : '\n' ∉ query) :
    suffix? (s ++ '?' :: query) = (suffix? s).map (· ++ [(queryParam, String.ofList query)]) := by
  cases s with
  | nil => exact suffix_query hline
  | cons c s =>
    have hc : c ≠ '?' := fun he => h (he ▸ List.mem_cons_self ..)
    have hnone : ∀ rest, suffix? (c :: rest) = none := by
      intro rest
      rw [← Option.not_isSome_iff_eq_none, Option.isSome_iff_exists]
      rintro ⟨found, hf⟩
      obtain ⟨hs, -⟩ | ⟨query, hs, -⟩ := suffix_eq_some_iff.mp hf
      · cases hs
      · exact hc (List.cons.inj hs).1
    rw [List.cons_append, hnone, hnone]
    rfl

theorem suffix_append_isSome (h : (suffix? s).isSome = true) (hline : '\n' ∉ query) :
    (suffix? (s ++ '?' :: query)).isSome = true := by
  obtain ⟨found, hf⟩ := Option.isSome_iff_exists.mp h
  obtain ⟨rfl, -⟩ | ⟨first, rfl, hfirst, -⟩ := suffix_eq_some_iff.mp hf
  · rw [List.nil_append, suffix_query hline]
    rfl
  · have hboth : '\n' ∉ first ++ '?' :: query := by simp [hfirst, hline]
    rw [List.cons_append, suffix_query hboth]
    rfl

theorem decompose_suffixed (hq : allowed queryParam = .line) {path query : String}
    (hline : '\n' ∉ query.toList)
    (h : (decompose? allowed (parts ++ [queryGroup]) path).isSome = true) :
    (decompose? allowed (parts ++ [queryGroup]) (path ++ "?" ++ query)).isSome = true := by
  rw [decompose_queryGroup hq, List.findSome?_isSome_iff] at h ⊢
  obtain ⟨⟨found, left⟩, hway, hsome⟩ := h
  obtain ⟨taken, hpath, hd⟩ := mem_waysOf_iff.mp hway
  refine ⟨(found, left ++ '?' :: query.toList), mem_waysOf_iff.mpr ⟨taken, ?_, hd⟩, ?_⟩
  · simp [hpath]
  · rw [Option.isSome_map] at hsome ⊢
    exact suffix_append_isSome hsome hline

/-- Where question marks are left to the query string, a path decomposes with one behind it as it
does alone. -/
theorem decompose_query (hq : allowed queryParam = .line)
    (hliteral : ∀ text ∈ Segment.literalsOf parts, '?' ∉ text.toList)
    (hparam : ∀ name ∈ Segment.namesOf parts, (allowed name).Lacks '?') {path query : String}
    (hpath : '?' ∉ path.toList) (hline : '\n' ∉ query.toList) :
    decompose? allowed (parts ++ [queryGroup]) (path ++ "?" ++ query) =
      (decompose? allowed (parts ++ [queryGroup]) path).map (· ++ [(queryParam, query)]) := by
  have htext : (path ++ "?" ++ query).toList = path.toList ++ '?' :: query.toList := by simp
  have hleft : ∀ way ∈ waysOf allowed parts path.toList, '?' ∉ way.2 := by
    rintro ⟨found, left⟩ hway hm
    obtain ⟨taken, hs, -⟩ := mem_waysOf_iff.mp hway
    rw [hs] at hpath
    exact hpath (List.mem_append_right _ hm)
  rw [decompose_queryGroup hq, decompose_queryGroup hq, htext, waysOf_marked hliteral hparam,
    List.findSome?_map, List.map_findSome?]
  generalize waysOf allowed parts path.toList = ways at hleft
  induction ways with
  | nil => rfl
  | cons way ways ih =>
    have hway := suffix_append (hleft way (List.mem_cons_self ..)) hline
    have hrest := ih fun other ho => hleft other (List.mem_cons_of_mem _ ho)
    simp only [List.findSome?_cons, Function.comp_apply, Prod.map_fst, Prod.map_snd, id,
      hway, String.ofList_toList, hrest]
    cases suffix? way.2 with
    | none => rfl
    | some found => simp

/-! ## What a query string adds -/

variable {r : Route} {p : Pattern} {found : Captures}

theorem complete_query (hcodec : r.codec.Lawful) {query : String}
    (hdefault : named? r.defaults queryParam = none)
    (hfound : ((found ++ [(queryParam, query)]).map Prod.fst).Nodup) :
    r.complete (found ++ [(queryParam, query)]) = r.complete found ++
      ofTexts id ((r.codec.decode query).filter fun e =>
        (named? (r.complete found) e.1).isNone) := by
  have hnew : queryParam ∉ found.map Prod.fst := by
    rw [List.map_append, List.nodup_append] at hfound
    intro hm
    exact hfound.2.2 queryParam hm queryParam (List.mem_singleton_self _) rfl
  have hlookup : found.lookup queryParam = none := lookup_of_notMem hnew
  have hnone : r.queryText? found = none := by rw [queryText?, hlookup, hdefault]; rfl
  have hsome : r.queryText? (found ++ [(queryParam, query)]) = some query := by
    rw [queryText?, List.lookup_append, hlookup, List.lookup_cons_self]
    rfl
  have hbefore : erase (r.beforeQuery (found ++ [(queryParam, query)])) (.str queryParam) =
      r.beforeQuery found := by
    rw [beforeQuery, erase_merged hdefault, erase_ofTexts hnew]
    rfl
  rw [complete_eq, complete_eq, hnone, hsome, Option.elim_none, Option.elim_some, hbefore,
    decoded_eq hcodec, hsome, Option.elim_some]
  exact merged_ofTexts (hcodec.distinct query)

/-- A route answers to every path by its matcher, for the methods that it answers to at all. -/
theorem parse_of_parse {path : String} {method : Value} {params : Mapping String}
    (h : r.parse (.str path) method = some params) :
    (∃ found, r.compiled.matcher.run path = some found ∧ params = r.complete found) ∧
      ∀ other, r.parse (.str other) method = (r.compiled.matcher.run other).map r.complete := by
  unfold parse at h ⊢
  split at h
  · rename_i given method hpath
    obtain rfl := Value.str.inj hpath
    split_ifs at h with hmethod
    obtain ⟨found, hrun, rfl⟩ := Option.map_eq_some_iff.mp h
    refine ⟨⟨found, hrun, rfl⟩, fun other => ?_⟩
    rw [if_pos hmethod]
  · cases h

/-- What parameters seem to be allowed lacks a character that neither names nor the values that are
listed have. -/
theorem lacks_of_seems {name : String} {a : Allowed} {mark : Char} (h : r.Seems name a)
    (hl : Listing (r.condition name)) (hmark : isNameChar mark = false)
    (hlisted : ∀ texts, listedValues? (r.condition name) = some texts →
      ∀ text ∈ texts, mark ∉ text.toList) : a.Lacks mark := by
  have hrun : Allowed.nameRun.Lacks mark := by
    intro text ht hm
    rw [Allowed.holds, Bool.and_eq_true, List.all_eq_true] at ht
    rw [ht.2 mark hm] at hmark
    cases hmark
  have hone : ∀ {texts : List String}, (∀ text ∈ texts, mark ∉ text.toList) →
      (Allowed.oneOf texts).Lacks mark := by
    intro texts ht text hm
    rw [Allowed.holds, List.contains_iff_mem] at hm
    simpa using ht _ hm
  rcases h with rfl | ⟨hnull, rfl⟩
  · obtain hc | ⟨texts, ht, hne⟩ := listing_iff.mp hl
    · rw [allowed, hc]
      exact hrun
    · rw [allowed, ofCondition_listed ht hne]
      exact hone (hlisted texts ht)
  · refine hone ?_
    intro text ht hm
    obtain rfl := List.mem_singleton.mp ht
    have hchars : mark = 'N' ∨ mark = 'o' ∨ mark = 'n' ∨ mark = 'e' := by simpa using hm
    rcases hchars with rfl | rfl | rfl | rfl <;> cases hmark

section Routes

variable {d : Definition} {codec : Codec} {cache : Option Cache} {path query : String}

/-- Behind a path that a route accepts any query string of one line is accepted, whether the path
has one already or not. -/
theorem parse_suffixed [CharacterNames] (hs : d.Resembled cache)
    (hr : (ofDefinition d codec cache).1 = .ok r) (hp : Pattern.parse none r.pattern = .ok p)
    (hl : ∀ name ∈ p.names, Listing (r.condition name)) (hline : '\n' ∉ query.toList)
    (h : (r.parse (.str path) (.str r.method)).isSome = true) :
    (r.parse (.str (path ++ "?" ++ query)) (.str r.method)).isSome = true := by
  obtain ⟨-, q, conditions, hseeming⟩ := ofDefinition_seeming hs hr
  obtain rfl := hseeming.eq hp
  obtain ⟨allowed, hquery, -, hrun⟩ := hseeming.run hl
  obtain ⟨params, hparse⟩ := Option.isSome_iff_exists.mp h
  obtain ⟨⟨found, hfound, -⟩, hparses⟩ := parse_of_parse hparse
  rw [hparses, Option.isSome_map, hrun]
  refine decompose_suffixed hquery hline ?_
  rw [← hrun, hfound]
  rfl

/-- The path has question marks of the pattern's own and a query string, and then one more. -/
theorem parse_suffixed_twice : ∃ r : Route,
    (ofDefinition ⟨.str "get", .str "a", .str "/a?<x>(/<y>)",
        .mapping [(.str "y", .list [.str "?", .str "?b"])], .null⟩ .standard none).1 = .ok r ∧
      '\n' ∉ "c=?d?".toList ∧ (r.parse (.str "/a?1/??z") (.str r.method)).isSome = true ∧
      (r.parse (.str ("/a?1/??z" ++ "?" ++ "c=?d?")) (.str r.method)).isSome = true := by
  have hmade : ((ofDefinition ⟨.str "get", .str "a", .str "/a?<x>(/<y>)",
      .mapping [(.str "y", .list [.str "?", .str "?b"])], .null⟩ .standard none).1.toOption.map
        fun r => (r.parse (.str "/a?1/??z") (.str r.method)).isSome) = some true := by
    decide +kernel
  generalize hr : (ofDefinition _ _ _).1 = result at hmade
  cases result with
  | error e => cases hmade
  | ok r =>
    obtain ⟨c, hc, -, hroute⟩ := ofDefinition_ok hr
    obtain rfl := Except.ok.inj hc
    have hx : r.condition "x" = .null := by rw [hroute]; rfl
    have hy : r.condition "y" = .list [.str "?", .str "?b"] := by rw [hroute]; rfl
    have hpattern : r.pattern = "/a?<x>(/<y>)" := by rw [hroute]
    have hp : Pattern.parse none r.pattern = .ok ⟨"/a?<x>(/<y>)", [.literal "/a?", .param "x",
        .optional ["y"] [.literal "/", .param "y"]], none⟩ := by
      rw [hpattern]
      rfl
    have hl : ∀ name ∈ ["x", "y"], Listing (r.condition name) := by
      intro name hname
      rcases List.mem_pair.mp hname with rfl | rfl
      · rw [hx]
        exact .absent
      · rw [hy]
        exact .list (by simp)
    have hparse := Option.some.inj hmade
    exact ⟨r, rfl, by decide, hparse,
      parse_suffixed (Definition.resembled_none _) hr hp hl (by decide) hparse⟩

/-- A line feed in the query string is refused. -/
theorem parse_suffixed_lineFeed : ∃ r p,
    (ofDefinition ⟨.str "GET", .str "a", .str "/a", .null, .null⟩ .standard none).1 = .ok r ∧
      Pattern.parse none r.pattern = .ok p ∧
      (∀ name ∈ p.names, Listing (r.condition name)) ∧
      (r.parse (.str "/a") (.str r.method)).isSome = true ∧
      r.parse (.str ("/a" ++ "?" ++ "x\ny")) (.str r.method) = none := by
  have hmade : ((ofDefinition ⟨.str "GET", .str "a", .str "/a", .null, .null⟩
      .standard none).1.toOption.map fun r =>
        (r.pattern, (r.parse (.str "/a") (.str r.method)).isSome,
          (r.parse (.str ("/a" ++ "?" ++ "x\ny")) (.str r.method)).isNone)) =
      some ("/a", true, true) := by decide +kernel
  generalize hr : (ofDefinition _ _ _).1 = result at hmade
  cases result with
  | error e => cases hmade
  | ok r =>
    obtain ⟨hpattern, hpath, hnone⟩ := by simpa only [Prod.mk.injEq] using Option.some.inj hmade
    refine ⟨r, ⟨"/a", [.literal "/a"], none⟩, rfl, ?_, nofun, hpath,
      Option.isNone_iff_eq_none.mp hnone⟩
    rw [hpattern]
    rfl

/-- A query string adds what it says under names that are not there yet, and changes nothing. -/
theorem parse_query_adds [CharacterNames] (hs : d.Resembled cache)
    (hr : (ofDefinition d codec cache).1 = .ok r)
    (hcodec : codec.Lawful) (hp : Pattern.parse none r.pattern = .ok p)
    (hl : ∀ name ∈ p.names, Listing (r.condition name))
    (hliteral : ∀ text ∈ Segment.literalsOf p.parts, '?' ∉ text.toList)
    (hlisted : ∀ name ∈ p.names, ∀ texts, listedValues? (r.condition name) = some texts →
      ∀ text ∈ texts, '?' ∉ text.toList)
    (hdefault : named? r.defaults queryParam = none) (hpath : '?' ∉ path.toList)
    (hline : '\n' ∉ query.toList) {method : Value} {params : Mapping String}
    (h : r.parse (.str path) method = some params) :
    r.parse (.str (path ++ "?" ++ query)) method =
      some (params ++ ofTexts id ((codec.decode query).filter fun e =>
        (named? params e.1).isNone)) := by
  obtain ⟨hown, q, conditions, hseeming⟩ := ofDefinition_seeming hs hr
  obtain rfl := hseeming.eq hp
  obtain ⟨allowed, hquery, hallowed, hrun⟩ := hseeming.run hl
  obtain ⟨⟨found, hfound, rfl⟩, hparses⟩ := parse_of_parse h
  have hlacks : ∀ name ∈ p.names, (allowed name).Lacks '?' := fun name hname =>
    lacks_of_seems (hallowed name hname) (hl name hname) (by decide) (hlisted name hname)
  have hboth : r.compiled.matcher.run (path ++ "?" ++ query) =
      some (found ++ [(queryParam, query)]) := by
    rw [hrun, decompose_query hquery hliteral hlacks hpath hline, ← hrun, hfound]
    rfl
  subst hown
  rw [hparses, hboth]
  exact congrArg some (complete_query hcodec hdefault (hseeming.nodup_found hboth))

/-- Two groups can take the same text, the path and the defaults have names that the query string
has as well, and one of its names is told twice. -/
theorem parse_query_adds_ambiguous : ∃ r params,
    (ofDefinition ⟨.str "GET", .str "a", .str "/a(/<x>)(/<y>)",
        .mapping [(.str "y", .tuple [.str "b", .int 1])], .mapping [(.str "z", .int 3)]⟩
        .standard none).1 = .ok r ∧
      r.parse (.str "/a/b") (.str "get") = some params ∧
      named? params "x" = some "b" ∧ named? params "y" = none ∧ named? params "z" = some "3" ∧
      r.parse (.str ("/a/b" ++ "?" ++ "y=5&x=6&z=7&y=8&q")) (.str "get") =
        some (params ++ [(.str "y", "5"), (.str "q", "")]) := by
  have hmade : ((ofDefinition ⟨.str "GET", .str "a", .str "/a(/<x>)(/<y>)",
      .mapping [(.str "y", .tuple [.str "b", .int 1])], .mapping [(.str "z", .int 3)]⟩
      .standard none).1.toOption.bind fun r =>
        (r.parse (.str "/a/b") (.str "get")).map fun params =>
          (named? params "x", named? params "y", named? params "z", named? params "q")) =
        some (some "b", none, some "3", none) := by decide +kernel
  generalize hr : (ofDefinition _ _ _).1 = result at hmade
  cases result with
  | error e => cases hmade
  | ok r =>
    obtain ⟨params, hparse, hvalues⟩ := Option.map_eq_some_iff.mp hmade
    obtain ⟨hx, hy, hz, hq⟩ := by simpa only [Prod.mk.injEq] using hvalues
    obtain ⟨c, hc, -, hroute⟩ := ofDefinition_ok hr
    obtain rfl := Except.ok.inj hc
    have hcx : r.condition "x" = .null := by rw [hroute]; rfl
    have hcy : r.condition "y" = .tuple [.str "b", .int 1] := by rw [hroute]; rfl
    have hpattern : r.pattern = "/a(/<x>)(/<y>)" := by rw [hroute]
    have hp : Pattern.parse none r.pattern = .ok ⟨"/a(/<x>)(/<y>)", [.literal "/a",
        .optional ["x"] [.literal "/", .param "x"],
        .optional ["y"] [.literal "/", .param "y"]], none⟩ := by
      rw [hpattern]
      rfl
    have hl : ∀ name ∈ ["x", "y"], Listing (r.condition name) := by
      intro name hname
      rcases List.mem_pair.mp hname with rfl | rfl
      · rw [hcx]
        exact .absent
      · rw [hcy]
        exact .tuple (by simp)
    have hlisted : ∀ name ∈ ["x", "y"], ∀ texts, listedValues? (r.condition name) = some texts →
        ∀ text ∈ texts, '?' ∉ text.toList := by
      intro name hname texts ht
      rcases List.mem_pair.mp hname with rfl | rfl
      · rw [hcx] at ht
        cases ht
      · rw [hcy] at ht
        obtain rfl := Option.some.inj ht
        decide
    have hdefault : named? r.defaults queryParam = none := by rw [hroute]; rfl
    have hdecoded : Codec.standard.decode "y=5&x=6&z=7&y=8&q" =
        [("y", "5"), ("x", "6"), ("z", "7"), ("q", "")] := by decide +kernel
    refine ⟨r, params, rfl, hparse, hx, hy, hz, ?_⟩
    rw [parse_query_adds (Definition.resembled_none _) hr Codec.standard_lawful hp hl
      (by decide) hlisted hdefault (by decide) (by decide) hparse]
    have hfilter : (Codec.standard.decode "y=5&x=6&z=7&y=8&q").filter
        (fun e => (named? params e.1).isNone) = [("y", "5"), ("q", "")] := by
      rw [hdecoded]
      simp only [List.filter_cons, hx, hy, hz, hq, List.filter_nil]
      rfl
    rw [hfilter]
    rfl

end Routes

end Route

end PathRouting
