import PathRouting.Proofs.Route.Construction
import PathRouting.Router

/-!
# Registering a route

A registration is refused because of the name, or the route is made and put last. Whatever
becomes of it, nothing but the cache can change where it fails.
-/
namespace PathRouting.Router

variable {r : Router} {d : Route.Definition}

/-- Why a name is not open to another route, if it is not. -/
def refusal? (r : Router) (name : Value) : Option Failure :=
  match r.named name with
  | .error m => some (.misuse m)
  | .ok (some _) => some (.fault (Fault.duplicateRoute name []))
  | .ok none => none

variable [CharacterNames]

theorem add_refused {r : Router} {d : Route.Definition} {e : Failure}
    (h : r.refusal? d.name = some e) : r.add d = (.error e, r) := by
  unfold refusal? at h
  unfold add
  split at h
  · obtain rfl := Option.some.inj h
    simp_all only
  · obtain rfl := Option.some.inj h
    simp_all only
  · cases h

theorem add_open {r : Router} {d : Route.Definition} (h : r.refusal? d.name = none) :
    r.add d = ((Route.ofDefinition d r.codec r.cache).1,
      { r with
        routes := r.routes ++ (Route.ofDefinition d r.codec r.cache).1.toOption.toList
        index := (Route.ofDefinition d r.codec r.cache).1.toOption.elim r.index
          (Mapping.insert r.index d.name)
        cache := (Route.ofDefinition d r.codec r.cache).2 }) := by
  have hnamed : r.named d.name = .ok none := by
    unfold refusal? at h
    split at h
    · cases h
    · cases h
    · assumption
  simp only [add, hnamed]
  rcases Route.ofDefinition d r.codec r.cache with ⟨_ | route, cache⟩
  · simp only [Except.toOption, Option.toList, List.append_nil, Option.elim]
  · rfl

/-- How a registration ends: the name is not open, no route can be made, or a route is put last
under a name that is new. -/
inductive Adds (r : Router) (d : Route.Definition) : Except Failure Route × Router → Prop where
  | refused {e : Failure} : r.refusal? d.name = some e → Adds r d (.error e, r)
  | failed {e : Failure} {cache : Option Pattern.Cache} :
    Route.ofDefinition d r.codec r.cache = (.error e, cache) →
    Adds r d (.error e, { r with cache := cache })
  | made {route : Route} {cache : Option Pattern.Cache} :
    Route.ofDefinition d r.codec r.cache = (.ok route, cache) → d.name = .str route.name →
    Mapping.get? r.index (.str route.name) = none →
    Adds r d (.ok route, { r with
      routes := r.routes ++ [route]
      index := Mapping.insert r.index (.str route.name) route
      cache := cache })

theorem ofDefinition_name {codec : Codec} {cache : Option Pattern.Cache} {route : Route}
    (h : (Route.ofDefinition d codec cache).1 = .ok route) : d.name = .str route.name := by
  obtain ⟨c, hc, -, hroute⟩ := Route.ofDefinition_ok h
  obtain ⟨-, hname, -⟩ := Route.Definition.check_ok hc
  unfold Route.nonEmptyText? at hname
  split at hname
  · split at hname
    · cases hname
    · rw [hroute, ← Option.some.inj hname]
      assumption
  · cases hname

theorem add_cases (r : Router) (d : Route.Definition) : r.Adds d (r.add d) := by
  cases hr : r.refusal? d.name with
  | some e =>
    rw [add_refused hr]
    exact .refused hr
  | none =>
    rw [add_open hr]
    rcases hd : Route.ofDefinition d r.codec r.cache with ⟨e | route, cache⟩
    · have hs := Adds.failed hd
      simpa only [Except.toOption, Option.toList, List.append_nil, Option.elim] using hs
    · have hname := ofDefinition_name (congrArg Prod.fst hd)
      rw [hname]
      refine .made hd hname ?_
      rw [hname] at hr
      unfold refusal? at hr
      split at hr
      · cases hr
      · cases hr
      · rename_i hn
        exact Except.ok.inj hn

end PathRouting.Router
