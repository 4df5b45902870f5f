import PathRouting.Proofs.Pattern.Bracketing
import PathRouting.Proofs.Pattern.Refusal
import PathRouting.Proofs.Route.Congruence
import PathRouting.Proofs.Route.Making

/-!
# When a route can be made

With conditions that are no expressions, a definition whose parts are of the right types is
accepted or refused by its pattern and by the conditions on the pattern's own parameters. There is
nothing else that can go wrong.
-/
namespace PathRouting

open Pattern Mapping Regex

namespace Route

/-- What a pattern and the conditions on its parameters must be like. -/
structure Acceptable (pattern : String) (conditions : Mapping Value) : Prop where
  balanced : Balanced pattern.toList
  distinct : ∀ p, Pattern.parse none pattern = .ok p → p.names.Nodup
  unreserved : ∀ p, Pattern.parse none pattern = .ok p → "query_string" ∉ p.names
  listing : ∀ p, Pattern.parse none pattern = .ok p → ∀ name ∈ p.names, ∀ condition,
    named? conditions name = some condition → Listing condition

/-- How compiling ends for a pattern with conditions that are no expressions. -/
inductive Judged (pattern : String) (conditions : Mapping Value) :
    Except Failure Compiled → Prop where
  | accepted {compiled : Compiled} : Acceptable pattern conditions →
      Judged pattern conditions (.ok compiled)
  | malformed {e : Pattern.Error} : ¬Balanced pattern.toList → e.kind = .form →
      Judged pattern conditions (.error (.pattern e))
  | meaningless {e : Pattern.Error} : Balanced pattern.toList → ¬Acceptable pattern conditions →
      e.kind = .meaning → Judged pattern conditions (.error (.pattern e))

variable {pattern : String} {conditions : Mapping Value} {p : Pattern}

/-- The conditions of a route: those that were given, and the one on the query string. -/
def withQuery (conditions : Mapping Value) : Mapping Value :=
  insert conditions (.str queryParam) (.str queryCondition)

theorem conditionOf_queryParam (conditions : Mapping Value) :
    conditionOf (.mapping (withQuery conditions)) queryParam = .ok (.str ".*") := by
  rw [conditionOf_mapping, withQuery, named?_insert_self]
  rfl

theorem conditionOf_declared {name : String} (hname : name ≠ queryParam) :
    conditionOf (.mapping (withQuery conditions)) name =
      .ok ((named? conditions name).getD .null) := by
  rw [conditionOf_mapping, withQuery, named?_insert_of_ne _ hname]

/-- The tree of a route: its own pattern and the query string. -/
def withQueryGroup (p : Pattern) : Pattern :=
  ⟨p.source ++ querySuffix, p.parts ++ [queryGroup], none⟩

theorem names_withQueryGroup (p : Pattern) : (withQueryGroup p).names = p.names ++ [queryParam] :=
  Segment.namesOf_append _ _

theorem parse_withQueryGroup (h : Pattern.parse none pattern = .ok p) :
    Pattern.parse none (pattern ++ querySuffix) = .ok (withQueryGroup p) := by
  obtain ⟨rfl, -⟩ := parse_sound h
  exact parse_querySuffix h

theorem parse_querySuffix_refused {e : Pattern.Error}
    (h : Pattern.parse none (pattern ++ querySuffix) = .error e) :
    ¬Balanced pattern.toList ∧ e.kind = .form := by
  constructor
  · intro hb
    obtain ⟨p, hp⟩ := parse_isOk_iff.mpr hb
    cases h.symm.trans (parse_withQueryGroup hp)
  · obtain ⟨position, -, ⟨-, rfl⟩ | ⟨-, rfl⟩⟩ := parse_refused h
    · rfl
    · rfl

theorem acceptable_iff (hp : Pattern.parse none pattern = .ok p) :
    Acceptable pattern conditions ↔ (withQueryGroup p).names.Nodup ∧
      ∀ name ∈ p.names, ∀ condition, named? conditions name = some condition →
        Listing condition := by
  have heq : ∀ {q}, Pattern.parse none pattern = .ok q → q = p := fun hq =>
    Except.ok.inj (hq.symm.trans hp)
  rw [names_withQueryGroup]
  constructor
  · intro h
    refine ⟨?_, h.listing p hp⟩
    rw [List.nodup_append]
    refine ⟨h.distinct p hp, by simp, ?_⟩
    intro name hname other hother he
    obtain rfl := List.mem_singleton.mp hother
    subst he
    exact h.unreserved p hp hname
  · rintro ⟨hnodup, hlisting⟩
    obtain ⟨hdistinct, -, hapart⟩ := List.nodup_append.mp hnodup
    constructor
    case balanced => exact parse_isOk_iff.mp ⟨p, hp⟩
    case distinct =>
      intro q hq
      exact heq hq ▸ hdistinct
    case unreserved =>
      intro q hq hm
      exact hapart _ (heq hq ▸ hm) queryParam (by simp) rfl
    case listing =>
      intro q hq
      exact heq hq ▸ hlisting

theorem conditionOf_line (hs : ∀ e ∈ conditions, ∀ source, e.2 ≠ .str source) (name source : String)
    (h : conditionOf (.mapping (withQuery conditions)) name = .ok (.str source)) :
    source = ".*" := by
  by_cases hname : name = queryParam
  · rw [hname, conditionOf_queryParam] at h
    exact (Value.str.inj (Except.ok.inj h)).symm
  · rw [conditionOf_declared hname] at h
    cases hc : named? conditions name with
    | none =>
      rw [hc] at h
      cases h
    | some condition =>
      rw [hc] at h
      obtain ⟨key, hm⟩ := mem_of_named? hc
      exact absurd (Except.ok.inj h) (hs _ hm source)

section

variable [CharacterNames]

theorem conditionSource_declared (hs : ∀ e ∈ conditions, ∀ source, e.2 ≠ .str source)
    {name : String} (hname : name ≠ queryParam) :
    (∃ inner, (conditionOf (.mapping (withQuery conditions)) name >>= conditionSource name) =
      .ok inner ∧ ∀ condition, named? conditions name = some condition → Listing condition) ∨
    ∃ condition e, named? conditions name = some condition ∧ ¬Listing condition ∧
      (conditionOf (.mapping (withQuery conditions)) name >>= conditionSource name) = .error e ∧
        Unlisted name condition e := by
  rw [conditionOf_declared hname]
  cases hc : named? conditions name with
  | none => exact .inl ⟨_, rfl, nofun⟩
  | some condition =>
    obtain ⟨key, hm⟩ := mem_of_named? hc
    rcases conditionSource_cases (hs _ hm) name with ⟨inner, hi, hl⟩ | ⟨e, he, hu, hl⟩
    · refine .inl ⟨inner, hi, ?_⟩
      rintro other ⟨⟩
      exact hl
    · exact .inr ⟨condition, e, rfl, hl, he, hu⟩

theorem conditionSource_queryParam :
    (conditionOf (.mapping (withQuery conditions)) queryParam >>= conditionSource queryParam) =
      .ok ⟨".*".toList, 0⟩ := by
  have hline : conditionSource queryParam (.str ".*") = .ok ⟨".*".toList, 0⟩ := by rfl
  rw [conditionOf_queryParam]
  exact hline

/-- Compiling a definition ends as its pattern and the conditions on the parameters say. -/
theorem compile_judged {c : Checked} (hcc : c.conditions = withQuery conditions)
    (hs : ∀ e ∈ conditions, ∀ source, e.2 ≠ .str source) :
    Judged c.pattern conditions c.request.compile := by
  rw [Checked.request, Request.compile_mapping, hcc]
  cases hq : Pattern.parse none (c.pattern ++ querySuffix) with
  | error e =>
    obtain ⟨hb, hkind⟩ := parse_querySuffix_refused hq
    exact .malformed hb hkind
  | ok q =>
    obtain ⟨p, hp, -⟩ := parse_of_querySuffix hq
    obtain rfl := Except.ok.inj (hq.symm.trans (parse_withQueryGroup hp))
    have hb : Balanced c.pattern.toList := parse_isOk_iff.mp ⟨p, hp⟩
    have hnames := names_withQueryGroup p
    have hline : ∀ name ∈ (withQueryGroup p).names, ∀ source,
        conditionOf (.mapping (withQuery conditions)) name = .ok (.str source) → source = ".*" :=
      fun name _ source => conditionOf_line hs name source
    simp only [Failure.ofPattern, Bind.bind, Except.bind]
    rcases Matcher.ofPattern_cases hline with
      ⟨m, hm, hnodup, hsources⟩ | ⟨hnodup, hm⟩ | ⟨name, hname, e, he, hm⟩
    · rw [hm]
      refine .accepted ((acceptable_iff hp).mpr ⟨hnodup, ?_⟩)
      intro name hname
      have hne : name ≠ queryParam := by
        rw [hnames, List.nodup_append] at hnodup
        exact hnodup.2.2 name hname queryParam (by simp)
      obtain ⟨inner, hi⟩ := hsources name (by simp [hnames, hname])
      rcases conditionSource_declared hs hne with ⟨_, -, hl⟩ | ⟨_, e, -, -, he, -⟩
      · exact hl
      · cases hi.symm.trans he
    · rw [hm]
      exact .meaningless hb (fun h => hnodup ((acceptable_iff hp).mp h).1) rfl
    · rw [hm]
      have hne : name ≠ queryParam := by
        rintro rfl
        cases he.symm.trans conditionSource_queryParam
      have hown : name ∈ p.names := by
        rw [hnames] at hname
        exact (List.mem_append.mp hname).resolve_right (by simpa using hne)
      rcases conditionSource_declared hs hne with ⟨inner, hi, -⟩ | ⟨condition, e', hc, hl, he', hu⟩
      · cases he.symm.trans hi
      · obtain rfl := Except.error.inj (he.symm.trans he')
        have hrefused : ¬Acceptable c.pattern conditions :=
          fun h => hl (h.listing p hp name hown _ hc)
        cases hu with
        | unsupported _ => exact .meaningless hb hrefused rfl
        | empty _ => exact .meaningless hb hrefused rfl

end

variable {d : Definition} {codec : Codec} {cache : Option Cache}

/-- A definition whose parts are of the right types. -/
structure Definition.Typed (d : Definition) (pattern : String) (conditions : Mapping Value) :
    Prop where
  method : ∃ method, d.method = .str method ∧ Text.upper method ∈ routeMethods
  name : ∃ name, d.name = .str name ∧ name ≠ ""
  pattern : d.pattern = .str pattern ∧ pattern ≠ ""
  conditions : d.conditions = .mapping conditions ∨ d.conditions = .null ∧ conditions = []
  defaults : d.defaults = .null ∨ ∃ defaults, d.defaults = .mapping defaults

theorem Definition.Typed.check (h : d.Typed pattern conditions) : ∃ method name defaults,
    d.check = .ok ⟨method, name, pattern, withQuery conditions, defaults⟩ ∧
    ∀ conditions', Definition.check { d with conditions := .mapping conditions' } =
      .ok ⟨method, name, pattern, withQuery conditions', defaults⟩ := by
  obtain ⟨method, hm, hmethod⟩ := h.method
  obtain ⟨name, hn, hname⟩ := h.name
  obtain ⟨hp, hpattern⟩ := h.pattern
  have hmethod? : method? d.method = some (Text.upper method) := by
    rw [hm, method?]
    simp [hmethod]
  have hname? : nonEmptyText? d.name = some name := by
    rw [hn, nonEmptyText?]
    simp [hname]
  have hpattern? : nonEmptyText? d.pattern = some pattern := by
    rw [hp, nonEmptyText?]
    simp [hpattern]
  have hconditions? : optionalMapping? d.conditions = some conditions := by
    obtain hc | ⟨hc, rfl⟩ := h.conditions
    · rw [hc, optionalMapping?]
    · rw [hc, optionalMapping?]
  have hdefaults? : ∃ defaults, optionalMapping? d.defaults = some defaults := by
    obtain hd | ⟨defaults, hd⟩ := h.defaults
    · exact ⟨[], by rw [hd, optionalMapping?]⟩
    · exact ⟨defaults, by rw [hd, optionalMapping?]⟩
  obtain ⟨defaults, hd⟩ := hdefaults?
  exact ⟨Text.upper method, name, mapValues Value.text defaults,
    Definition.check_of hmethod? hname? hpattern? hconditions? hd,
    fun conditions' => Definition.check_of hmethod? hname? hpattern? rfl hd⟩

theorem Definition.Typed.descriptor_undeclared [CharacterNames] (h : d.Typed pattern conditions)
    {conditions' : Mapping Value}
    (hsame : ∀ p, Pattern.parse none pattern = .ok p → ∀ name ∈ p.names,
      named? conditions' name = named? conditions name) :
    (ofDefinition { d with conditions := .mapping conditions' } codec none).1.map descriptor =
      (ofDefinition d codec none).1.map descriptor := by
  obtain ⟨method, name, defaults, hcheck, hcheck'⟩ := h.check
  rw [ofDefinition_checked hcheck, ofDefinition_checked (hcheck' conditions'), compileWith_none,
    compileWith_none]
  simp only [Checked.request, Request.compile_mapping]
  cases hq : Pattern.parse none (pattern ++ querySuffix) with
  | error e => rfl
  | ok q =>
    obtain ⟨p, hp, -⟩ := parse_of_querySuffix hq
    obtain rfl := Except.ok.inj (hq.symm.trans (parse_withQueryGroup hp))
    have hmatcher : Matcher.ofPattern (withQueryGroup p) (.mapping (withQuery conditions')) =
        Matcher.ofPattern (withQueryGroup p) (.mapping (withQuery conditions)) := by
      apply Matcher.ofPattern_congr
      intro other hother
      by_cases hquery : other = queryParam
      · rw [hquery, conditionOf_queryParam, conditionOf_queryParam]
      · rw [names_withQueryGroup, List.mem_append, List.mem_singleton] at hother
        rw [conditionOf_declared hquery, conditionOf_declared hquery,
          hsame p hp other (hother.resolve_right hquery)]
    simp only [Failure.ofPattern, Bind.bind, Except.bind]
    rw [hmatcher]
    cases Matcher.ofPattern (withQueryGroup p) (.mapping (withQuery conditions)) <;> rfl

theorem Definition.Unaffected.agree [CharacterNames] (h : d.Unaffected cache) :
    Agree (ofDefinition d codec cache).1 (ofDefinition d codec none).1 :=
  ofDefinition_agree_none h

/-- The three ways in which making a route with conditions that are no expressions can end. -/
inductive Outcome (pattern : String) (conditions : Mapping Value) :
    Except Failure Route → Prop where
  | accepted {r : Route} : Acceptable pattern conditions → Outcome pattern conditions (.ok r)
  | malformed {f : Fault} : ¬Balanced pattern.toList → f.kind = .patternInvalid →
      f.cause = some (.pattern .form) → Outcome pattern conditions (.error (.fault f))
  | meaningless {f : Fault} : Balanced pattern.toList → ¬Acceptable pattern conditions →
      f.kind = .patternInvalid → f.cause = some (.pattern .meaning) →
      Outcome pattern conditions (.error (.fault f))

theorem Definition.Typed.outcome [CharacterNames] (h : d.Typed pattern conditions)
    (hs : ∀ e ∈ conditions, ∀ source, e.2 ≠ .str source) (hu : d.Unaffected cache) :
    Outcome pattern conditions (ofDefinition d codec cache).1 := by
  obtain ⟨method, name, defaults, hcheck, -⟩ := h.check
  have hagree : Agree (ofDefinition d codec cache).1 (ofDefinition d codec none).1 := hu.agree
  have hjudged :=
    compile_judged (c := ⟨method, name, pattern, withQuery conditions, defaults⟩) rfl hs
  rw [ofDefinition_checked hcheck codec none, compileWith_none] at hagree
  generalize (ofDefinition d codec cache).1 = result at hagree ⊢
  generalize Checked.request _ = request at hagree hjudged
  generalize request.compile = compiled at hagree hjudged
  cases hjudged with
  | accepted hacceptable =>
    cases hagree with
    | made _ => exact .accepted hacceptable
  | malformed hb hkind =>
    cases hagree with
    | refused _ => exact .malformed hb rfl (by rw [← hkind]; rfl)
  | meaningless hb hrefused hkind =>
    cases hagree with
    | refused _ => exact .meaningless hb hrefused rfl (by rw [← hkind]; rfl)

/-- With conditions that are no expressions, a route is made exactly if its pattern has balanced
brackets and distinct names other than the reserved one, and every condition on one of them lists
a value. Otherwise a fault says whether it was for the brackets. What is generated from the
pattern is always an expression, and no condition on anything else matters. -/
theorem ofDefinition_isOk_iff [CharacterNames] (h : d.Typed pattern conditions)
    (hs : ∀ e ∈ conditions, ∀ source, e.2 ≠ .str source) (hu : d.Unaffected cache) :
    ((∃ r, (ofDefinition d codec cache).1 = .ok r) ↔ Acceptable pattern conditions) ∧
    (¬Balanced pattern.toList → ∃ f, (ofDefinition d codec cache).1 = .error (.fault f) ∧
      f.kind = .patternInvalid ∧ f.cause = some (.pattern .form)) ∧
    (Balanced pattern.toList → ¬Acceptable pattern conditions →
      ∃ f, (ofDefinition d codec cache).1 = .error (.fault f) ∧
        f.kind = .patternInvalid ∧ f.cause = some (.pattern .meaning)) ∧
    (∀ p piece, Pattern.parse none (pattern ++ querySuffix) = .ok p →
      pieces (conditionOf (.mapping (withQuery conditions))) 0 p.parts = .ok piece →
        ∃ regex, Regex.ofChars ('^' :: (piece.source ++ ['$'])) = .ok regex) ∧
    (∀ conditions', (∀ p, Pattern.parse none pattern = .ok p → ∀ name ∈ p.names,
        named? conditions' name = named? conditions name) →
      ∀ cache', Definition.Unaffected { d with conditions := .mapping conditions' } cache' →
        (ofDefinition { d with conditions := .mapping conditions' } codec cache').1.map
          descriptor = (ofDefinition d codec cache).1.map descriptor) := by
  have houtcome : Outcome pattern conditions (ofDefinition d codec cache).1 := h.outcome hs hu
  refine ⟨⟨?_, ?_⟩, ?_, ?_, ?_, ?_⟩
  · rintro ⟨r, hr⟩
    rw [hr] at houtcome
    cases houtcome with
    | accepted hacceptable => exact hacceptable
  · intro hacceptable
    generalize (ofDefinition d codec cache).1 = result at houtcome ⊢
    cases houtcome with
    | accepted _ => exact ⟨_, rfl⟩
    | malformed hb _ _ => exact absurd hacceptable.balanced hb
    | meaningless _ hrefused _ _ => exact absurd hacceptable hrefused
  · intro hb
    generalize (ofDefinition d codec cache).1 = result at houtcome ⊢
    cases houtcome with
    | accepted hacceptable => exact absurd hacceptable.balanced hb
    | malformed _ hkind hcause => exact ⟨_, rfl, hkind, hcause⟩
    | meaningless hb' _ _ _ => exact absurd hb' hb
  · intro hb hrefused
    generalize (ofDefinition d codec cache).1 = result at houtcome ⊢
    cases houtcome with
    | accepted hacceptable => exact absurd hacceptable hrefused
    | malformed hb' _ _ => exact absurd hb hb'
    | meaningless _ _ hkind hcause => exact ⟨_, rfl, hkind, hcause⟩
  · intro p piece _ hp
    obtain ⟨nodes, groups, -, hregex⟩ := pieces_accepted hp fun name _ source =>
      conditionOf_line hs name source
    exact ⟨_, hregex⟩
  · intro conditions' hsame cache' hu'
    rw [hu'.agree.descriptor, hu.agree.descriptor]
    exact h.descriptor_undeclared hsame

/-- Empty texts and texts full of special characters can be listed, and a condition on nothing can
be anything; a name that occurs twice and a bracket without a partner are refused. -/
theorem ofDefinition_isOk_special :
    (∃ r, (ofDefinition ⟨.str "get", .str "page", .str "/*[(<x>()(-<y>))", .mapping
        [(.str "x", .list [.str "", .str "(?P<"]), (.str "y", .frozenSet [.float .nan, .null]),
          (.str "z", .int 3)], .null⟩ .standard none).1 = .ok r) ∧
    (∃ f, (ofDefinition ⟨.str "get", .str "page", .str "/<x>(/<x>)", .null, .null⟩ .standard
        none).1 = .error (.fault f) ∧ f.kind = .patternInvalid ∧
          f.cause = some (.pattern .meaning)) ∧
    ∃ f, (ofDefinition ⟨.str "get", .str "page", .str "/<x>(/<x>", .null, .null⟩ .standard
        none).1 = .error (.fault f) ∧ f.kind = .patternInvalid ∧
          f.cause = some (.pattern .form) := by
  have typed : ∀ (pattern : String) (given : Value) (conditions : Mapping Value), pattern ≠ "" →
      given = .mapping conditions ∨ given = .null ∧ conditions = [] →
      Definition.Typed ⟨.str "get", .str "page", .str pattern, given, .null⟩ pattern conditions :=
    fun pattern given conditions hp hc => ⟨⟨"get", rfl, by decide⟩, ⟨"page", rfl, by decide⟩,
      ⟨rfl, hp⟩, hc, .inl rfl⟩
  refine ⟨?_, ?_, ?_⟩
  · have hacceptable : Acceptable "/*[(<x>()(-<y>))"
        [(.str "x", .list [.str "", .str "(?P<"]), (.str "y", .frozenSet [.float .nan, .null]),
          (.str "z", .int 3)] := by
      have hp : Pattern.parse none "/*[(<x>()(-<y>))" = .ok ⟨"/*[(<x>()(-<y>))", [.literal "/*[",
        .optional ["x"] [.param "x", .optional [] [], .optional ["y"] [.literal "-", .param "y"]]],
          none⟩ := by rfl
      refine (acceptable_iff hp).mpr ⟨by decide, ?_⟩
      intro name hname condition hcondition
      obtain rfl | rfl : name = "x" ∨ name = "y" := by
        simpa [Pattern.names, Segment.namesOf, Segment.names] using hname
      · obtain rfl := Option.some.inj hcondition
        exact .list (by simp)
      · obtain rfl := Option.some.inj hcondition
        exact .frozenSet (by simp)
    exact (ofDefinition_isOk_iff (typed _ _ _ (by decide) (.inl rfl)) (by simp)
      (Definition.unaffected_none _)).1.mpr hacceptable
  · have hp : Pattern.parse none "/<x>(/<x>)" = .ok ⟨"/<x>(/<x>)", [.literal "/", .param "x",
        .optional ["x"] [.literal "/", .param "x"]], none⟩ := by rfl
    have hrefused : ¬Acceptable "/<x>(/<x>)" [] := by
      intro h
      exact absurd (h.distinct _ hp) (by decide)
    exact (ofDefinition_isOk_iff (typed _ _ _ (by decide) (.inr ⟨rfl, rfl⟩)) (by simp)
      (Definition.unaffected_none _)).2.2.1 (parse_isOk_iff.mp ⟨_, hp⟩) hrefused
  · have hb : ¬Balanced "/<x>(/<x>".toList := by
      intro h
      obtain ⟨p, hp⟩ : ∃ p, Pattern.parse none "/<x>(/<x>" = .ok p := parse_isOk_iff.mpr h
      have hrefused : Pattern.parse none "/<x>(/<x>" = .error (.unclosed 4 none) := by rfl
      cases hrefused.symm.trans hp
    exact (ofDefinition_isOk_iff (typed _ _ _ (by decide) (.inr ⟨rfl, rfl⟩)) (by simp)
      (Definition.unaffected_none _)).2.1 hb

end Route

end PathRouting
