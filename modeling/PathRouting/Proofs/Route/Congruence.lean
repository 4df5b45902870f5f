import PathRouting.Proofs.Pattern.Congruence
import PathRouting.Proofs.Route.Construction

/-!
# Routes that answer alike

Routes whose patterns were compiled alike match and build the same paths. Where the conditions
and defaults of a definition stand under names, so do those of the request that is compiled for
it.
-/
namespace PathRouting

open Mapping Pattern

namespace Route

/-! ## Routes -/

/-- Routes that differ in what was compiled for them at most, and that was compiled alike. -/
inductive Alike : Route → Route → Prop where
  | mk {route : Route} {compiled : Compiled} (h : compiled.Alike route.compiled) :
    Alike { route with compiled := compiled } route

namespace Alike

variable {x y : Route}

theorem name (h : x.Alike y) : x.name = y.name := by
  cases h
  rfl

theorem order (h : x.Alike y) : x.order = y.order := by
  cases h with
  | mk h => exact congrArg Matcher.order h.matcher

theorem descriptor (h : x.Alike y) : x.descriptor = y.descriptor := by
  cases h with
  | mk h => simp only [Route.descriptor, Route.order, Route.controller, h.matcher, h.built]

theorem parse (h : x.Alike y) (path method : Value) :
    x.parse path method = y.parse path method := by
  cases h with
  | mk h =>
    cases path <;> cases method <;> try rfl
    simp only [Route.parse, h.matcher]
    rfl

theorem declares (h : x.Alike y) : x.declares = y.declares := by
  funext key
  cases key <;> try rfl
  simp only [Route.declares, h.order]

theorem build (h : x.Alike y) (params : Mapping Value) : x.build params = y.build params := by
  have hdeclares := h.declares
  cases h with
  | mk h =>
    simp only [Route.build, hdeclares, Builder.build, h.built]
    exact buildParts_congr h.texts _ _

theorem buildFrom (h : x.Alike y) (params : Value) : x.buildFrom params = y.buildFrom params := by
  simp only [Route.buildFrom, funext h.build]

end Alike

/-! ## Making routes -/

variable {d : Definition} {codec : Codec} {cache : Option Cache}

/-- Two ways of making a route fail alike or give routes that answer alike. -/
inductive Agree : Except Failure Route → Except Failure Route → Prop where
  | refused (e : Failure) : Agree (.error e) (.error e)
  | made {x y : Route} : x.Alike y → Agree (.ok x) (.ok y)

theorem Agree.descriptor {x y : Except Failure Route} (h : Agree x y) :
    x.map Route.descriptor = y.map Route.descriptor := by
  cases h with
  | refused e => rfl
  | made h => exact congrArg Except.ok h.descriptor

theorem Agree.routes {x y : Except Failure Route} (h : Agree x y) :
    List.Forall₂ Alike x.toOption.toList y.toOption.toList := by
  cases h with
  | refused e => exact .nil
  | made h => exact .cons h .nil

def Checked.route (c : Checked) (codec : Codec) (compiled : Compiled) : Route :=
  ⟨c.method, c.name, c.pattern, c.conditions, c.defaults, codec, compiled, .null⟩

section

variable [CharacterNames]

theorem ofDefinition_checked {c : Checked} (hc : d.check = .ok c) (codec : Codec)
    (cache : Option Cache) : ofDefinition d codec cache =
      (match (compileWith cache c.request).1 with
        | .error e => .error (patternFault c.name c.pattern e)
        | .ok compiled => .ok (c.route codec compiled),
        (compileWith cache c.request).2) := by
  simp only [ofDefinition, hc]
  rcases compileWith cache c.request with ⟨_ | compiled, cache'⟩ <;> rfl

theorem compileWith_none (r : Request) : compileWith none r = (r.compile, none) := rfl

/-- Where a cache has what compiling would give, a definition comes to what it comes to without
one. -/
theorem ofDefinition_agree_none (h : ∀ c, d.check = .ok c →
      Pattern.Agree (compileWith cache c.request).1 c.request.compile) :
    Agree (ofDefinition d codec cache).1 (ofDefinition d codec none).1 := by
  cases hc : d.check with
  | error e =>
    simp only [ofDefinition, hc]
    exact .refused e
  | ok c =>
    have hagree := h c hc
    rw [ofDefinition_checked hc, ofDefinition_checked hc, compileWith_none]
    generalize (compileWith cache c.request).1 = result at hagree ⊢
    generalize c.request.compile = fresh at hagree ⊢
    cases hagree with
    | refused e => exact .refused _
    | @compiled _ compiled halike => exact .made (@Alike.mk (c.route codec compiled) _ halike)

end

/-! ## Definitions -/

/-- The conditions and the defaults of a definition are absent or stand under names. -/
structure Definition.Keyed (d : Definition) : Prop where
  conditions : ∃ entries, d.conditions.Holds entries
  defaults : ∃ entries, d.defaults.Holds entries

theorem optionalMapping?_holds {v : Value} {es : Mapping Value} {entries : List (String × Value)}
    (h : v.Holds entries) (ho : optionalMapping? v = some es) : es = ofTexts id entries := by
  rcases h.eq with ⟨rfl, rfl⟩ | rfl
  · exact (Option.some.inj ho).symm
  · exact (Option.some.inj ho).symm

theorem Definition.Keyed.request {d : Definition} {c : Checked} (h : d.Keyed)
    (hc : d.check = .ok c) : ∃ conditions defaults, c.request.Named conditions defaults := by
  obtain ⟨conditions, hconditions⟩ := h.conditions
  obtain ⟨defaults, hdefaults⟩ := h.defaults
  obtain ⟨-, -, -, es, ds, hes, hds, hcc, hcd⟩ := d.check_ok hc
  obtain rfl := optionalMapping?_holds hconditions hes
  obtain rfl := optionalMapping?_holds hdefaults hds
  obtain ⟨entries, heq, hn⟩ :=
    exists_insert_ofTexts hconditions.distinct queryParam (.str queryCondition)
  have htexts : (c.defaults.mapValues Value.str) =
      ofTexts id (Request.textual (defaults.map fun e => (e.1, e.2.text))) := by
    rw [hcd]
    simp [mapValues, ofTexts, Request.textual, Function.comp_def]
  refine ⟨entries, defaults.map fun e => (e.1, e.2.text), ⟨.inr ?_, hn⟩, ⟨.inr ?_, ?_⟩⟩
  · exact congrArg Value.mapping (hcc.trans heq)
  · exact congrArg Value.mapping htexts
  · simpa [Request.textual, Function.comp_def] using hdefaults.distinct

end Route

end PathRouting
