import PathRouting.Proofs.Pattern.Reading
import PathRouting.Route

/-!
# What a route is made of

A route that was made holds the checked parts of its definition and the compiled pattern with
the query string behind it. A cache may stand in for compiling as long as its entries are what
compiling would give.
-/
namespace PathRouting

open Regex

namespace Pattern

variable [CharacterNames]

/-- Whatever a cache has stored for a request is what the request compiles to. -/
def Cache.Serves (c : Cache) (request : Request) : Prop :=
  ∀ e ∈ c.entries, request.fingerprint = .ok e.key → request.compile = .ok e.shared.compiled

theorem Cache.lookup_serves {c : Cache} {request : Request} {key : String} {shared : Shared}
    (h : c.Serves request) (hk : request.fingerprint = .ok key)
    (hl : (c.lookup key).1 = some shared) : request.compile = .ok shared.compiled := by
  unfold lookup at hl
  split at hl
  · cases hl
  · rename_i e he
    have hkey : e.key = key := by simpa using List.find?_some he
    split at hl
    · cases hl
    · obtain rfl := Option.some.inj hl
      exact h e (List.mem_of_find?_eq_some he) (hkey ▸ hk)

theorem Cache.compile_serves {c : Cache} {request : Request} {shared : Shared}
    (h : c.Serves request) (hc : (c.compile request).1 = .ok shared) :
    request.compile = .ok shared.compiled := by
  unfold compile get at hc
  cases hk : request.fingerprint with
  | error m =>
    simp only [hk] at hc
    cases hc
  | ok key =>
    cases hl : (c.lookup key).1 with
    | some found =>
      simp only [hk, hl] at hc
      obtain rfl := Except.ok.inj hc
      exact lookup_serves h hk hl
    | none =>
      simp only [hk, hl] at hc
      cases hcompile : request.compile with
      | error e =>
        simp only [hcompile] at hc
        cases hc
      | ok compiled =>
        simp only [hcompile, number] at hc
        split at hc
        · cases hc
        · obtain rfl := Except.ok.inj hc
          rfl

theorem Request.compile_mapping (source : String) (conditions defaults : Mapping Value) :
    Request.compile ⟨source, .mapping conditions, .mapping defaults⟩ = do
      let p ← Failure.ofPattern (parse none source)
      let m ← Matcher.ofPattern p (.mapping conditions)
      return ⟨p, m, ⟨p, Mapping.mapValues Value.text defaults⟩, conditions,
        Mapping.mapValues Value.text defaults⟩ := by
  have hconditions : (Value.mapping conditions).toMapping = .ok conditions := by
    cases conditions <;> rfl
  have hdefaults : Builder.defaultTexts (.mapping defaults) =
      .ok (Mapping.mapValues Value.text defaults) := by
    cases defaults <;> rfl
  rw [Request.compile, Compiled.ofSource]
  cases Failure.ofPattern (parse none source) with
  | error e => rfl
  | ok p =>
    simp only [bind, Except.bind]
    rw [Compiled.ofPattern, hconditions, hdefaults]
    rfl

theorem Request.compile_ok {source : String} {conditions defaults : Mapping Value}
    {compiled : Compiled}
    (h : Request.compile ⟨source, .mapping conditions, .mapping defaults⟩ = .ok compiled) :
    ∃ p m, parse none source = .ok p ∧ Matcher.ofPattern p (.mapping conditions) = .ok m ∧
      compiled = ⟨p, m, ⟨p, Mapping.mapValues Value.text defaults⟩, conditions,
        Mapping.mapValues Value.text defaults⟩ := by
  rw [Request.compile_mapping] at h
  obtain ⟨p, hp, h⟩ := bind_eq_ok.mp h
  obtain ⟨m, hm, h⟩ := bind_eq_ok.mp h
  exact ⟨p, m, Failure.ofPattern_ok hp, hm, (Except.ok.inj h).symm⟩

end Pattern

namespace Route

open Pattern

def queryGroup : Segment := .group [.literal "?", .param queryParam]

theorem querySuffix_eq : querySuffix = String.ofList (Segment.render queryGroup) := by decide

/-- The query string stands behind whatever the pattern of a route is, and a pattern that is refused
is refused as it is without it. -/
theorem parse_querySuffix_eq (file : Option String) (source : String) :
    Pattern.parse file (source ++ querySuffix) = (Pattern.parse file source).map fun p =>
      ⟨source ++ querySuffix, p.parts ++ [queryGroup], file⟩ := by
  have hc : Segment.Canonical [.literal "?", .param queryParam] := by
    rw [Segment.canonical_iff]
    decide
  rw [querySuffix_eq]
  exact parse_append_group file source hc

theorem parse_querySuffix {file : Option String} {source : String} {p : Pattern}
    (h : Pattern.parse file source = .ok p) : Pattern.parse file (source ++ querySuffix) =
      .ok ⟨source ++ querySuffix, p.parts ++ [queryGroup], file⟩ := by
  rw [parse_querySuffix_eq, h]
  rfl

variable {d : Definition} {codec : Codec} {cache : Option Cache} {r : Route}

theorem compileWith_ok [CharacterNames] {request : Request} {compiled : Compiled}
    (hcache : ∀ c, cache = some c → c.Serves request)
    (h : (compileWith cache request).1 = .ok compiled) : request.compile = .ok compiled := by
  cases cache with
  | none => exact h
  | some c =>
    rw [compileWith] at h
    cases hc : (c.compile request).1 with
    | error e =>
      simp only [hc] at h
      cases h
    | ok shared =>
      simp only [hc] at h
      obtain rfl := Except.ok.inj h
      exact Cache.compile_serves (hcache c rfl) hc

theorem ofDefinition_ok [CharacterNames] (h : (ofDefinition d codec cache).1 = .ok r) :
    ∃ c, d.check = .ok c ∧ (compileWith cache c.request).1 = .ok r.compiled ∧
      r = ⟨c.method, c.name, c.pattern, c.conditions, c.defaults, codec, r.compiled, .null⟩ := by
  unfold ofDefinition at h
  split at h
  · cases h
  · rename_i c hc
    split at h
    · cases h
    · rename_i compiled cache' hcompile
      obtain rfl := Except.ok.inj h
      exact ⟨c, hc, congrArg Prod.fst hcompile, rfl⟩

theorem Definition.check_of {method name pattern : String} {conditions defaults : Mapping Value}
    (hm : method? d.method = some method) (hn : nonEmptyText? d.name = some name)
    (hp : nonEmptyText? d.pattern = some pattern)
    (hc : optionalMapping? d.conditions = some conditions)
    (hd : optionalMapping? d.defaults = some defaults) : d.check = .ok ⟨method, name, pattern,
      Mapping.insert conditions (.str queryParam) (.str queryCondition),
      Mapping.mapValues Value.text defaults⟩ := by
  rw [check, hm, hn, hp, hc, hd]

theorem Definition.check_ok {c : Checked} (h : d.check = .ok c) :
    method? d.method = some c.method ∧ nonEmptyText? d.name = some c.name ∧
      nonEmptyText? d.pattern = some c.pattern ∧
      ∃ conditions defaults, optionalMapping? d.conditions = some conditions ∧
        optionalMapping? d.defaults = some defaults ∧
        c.conditions = Mapping.insert conditions (.str queryParam) (.str queryCondition) ∧
        c.defaults = Mapping.mapValues Value.text defaults := by
  unfold check at h
  split at h
  case h_6 method name pattern conditions defaults hm hn hp hc hd =>
    obtain rfl := Except.ok.inj h
    exact ⟨hm, hn, hp, conditions, defaults, hc, hd, rfl, rfl⟩
  all_goals cases h

end Route

end PathRouting
