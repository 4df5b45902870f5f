import PathRouting.Proofs.Pattern.Caching
import PathRouting.Proofs.Route.Validity

/-!
# Why no route is made

A definition whose conditions and defaults stand under names is refused with a fault, unless one of
its conditions alone is an expression beyond what can be read. A cache changes nothing about it:
such definitions have keys, and nothing is stored for what does not compile.
-/
namespace PathRouting.Route

open Pattern Mapping Regex

/-- The kinds of the faults that a definition is refused with. -/
def refusalKinds : List Fault.Kind := [.methodInvalid, .routeDefinition, .patternInvalid]

theorem methodFault_eq (method : Value) :
    ∃ f, methodFault method = .fault f ∧ f.kind = .methodInvalid := ⟨_, rfl, rfl⟩

variable {d : Definition} {codec : Codec} {cache : Option Cache} {request : Request} {e : Failure}

theorem Definition.check_error (h : d.check = .error e) :
    ∃ f, e = .fault f ∧ f.kind ∈ refusalKinds := by
  unfold check at h
  split at h
  · obtain rfl := Except.error.inj h
    obtain ⟨f, hf, hkind⟩ := methodFault_eq d.method
    exact ⟨f, hf, by simp [hkind, refusalKinds]⟩
  · exact ⟨_, (Except.error.inj h).symm, by decide⟩
  · exact ⟨_, (Except.error.inj h).symm, by decide⟩
  · exact ⟨_, (Except.error.inj h).symm, by decide⟩
  · exact ⟨_, (Except.error.inj h).symm, by decide⟩
  · cases h

variable [CharacterNames]

theorem compileWith_error (hk : ∃ key, request.fingerprint = .ok key)
    (h : (compileWith cache request).1 = .error e) : request.compile = .error e := by
  obtain ⟨key, hk⟩ := hk
  cases cache with
  | none => exact h
  | some c =>
    rw [compileWith] at h
    generalize hx : c.compile request = x at h
    cases hx ▸ c.compile_cases request with
    | keyless hm => cases hm.symm.trans hk
    | found _ _ => cases h
    | refused _ _ he =>
      obtain rfl := Except.error.inj h
      exact he
    | stored _ _ _ => cases h

/-- A checked definition does not compile for its pattern, or for a condition that was given. -/
theorem Checked.compile_error {c : Checked} {conditions : Mapping Value}
    (hc : c.conditions = withQuery conditions) (h : c.request.compile = .error e) :
    (∃ cause, e = .pattern cause) ∨
      ∃ name condition, named? conditions name = some condition ∧ Exceeds condition e := by
  rw [request, Request.compile_mapping, hc] at h
  rcases bind_eq_error.mp h with hp | ⟨p, -, h⟩
  · obtain ⟨cause, -, rfl⟩ := Failure.ofPattern_error hp
    exact .inl ⟨cause, rfl⟩
  · rcases bind_eq_error.mp h with hm | ⟨m, -, h⟩
    · rcases Matcher.ofPattern_error hm with hcause | ⟨name, -, he⟩
      · exact .inl hcause
      · by_cases hq : name = queryParam
        · subst hq
          cases conditionSource_queryParam.symm.trans he
        · rw [conditionOf_declared hq] at he
          rcases conditionSource_error he with hcause | hx
          · exact .inl hcause
          · cases hn : named? conditions name with
            | none =>
              rw [hn] at hx
              cases hx with
              | intro hv => cases hv
            | some condition =>
              rw [hn] at hx
              exact .inr ⟨name, condition, hn, hx⟩
    · cases h

theorem ofDefinition_error (hk : ∀ c, d.check = .ok c → d.Keyed)
    (h : (ofDefinition d codec cache).1 = .error e) :
    (∃ f, e = .fault f ∧ f.kind ∈ refusalKinds) ∨ ∃ conditions name condition,
      d.conditions = .mapping conditions ∧ named? conditions name = some condition ∧
      Exceeds condition e := by
  cases hcheck : d.check with
  | error e' =>
    rw [ofDefinition, hcheck] at h
    obtain rfl := Except.error.inj h
    exact .inl (Definition.check_error hcheck)
  | ok c =>
    obtain ⟨-, -, -, conditions, -, hgiven, -, hconditions, -⟩ := Definition.check_ok hcheck
    -- the request has a key, so a cache refuses no more than compiling does
    obtain ⟨entries, defaults, hnamed⟩ := (hk c hcheck).request hcheck
    rw [ofDefinition_checked hcheck] at h
    dsimp only at h
    split at h
    · rename_i e' he'
      obtain rfl := Except.error.inj h
      rcases c.compile_error hconditions (compileWith_error hnamed.fingerprint he') with
        ⟨cause, rfl⟩ | ⟨name, condition, hn, hx⟩
      · have hkind : Fault.Kind.patternInvalid ∈ refusalKinds := by decide
        exact .inl ⟨_, rfl, hkind⟩
      · refine .inr ⟨conditions, name, condition, ?_, hn, ?_⟩
        · unfold optionalMapping? at hgiven
          split at hgiven
          · obtain rfl := Option.some.inj hgiven
            cases hn
          · rename_i hmapping
            rw [hmapping, Option.some.inj hgiven]
          · cases hgiven
        · cases hx with
          | intro hs he hb => exact .intro hs he hb
    · cases h

end PathRouting.Route
