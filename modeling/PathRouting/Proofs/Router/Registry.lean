import PathRouting.Proofs.Pattern.Residue
import PathRouting.Proofs.Router.Transparency
import PathRouting.Proofs.Value.Merging

/-!
# The registry of a router

A router keeps its routes in a list and again under their names. Every registration keeps the two
in step, so whatever was registered the list has the routes that were made, in the order of the
calls, and the index has each of them under its name and nothing else.
-/
namespace PathRouting.Router

open Pattern

variable {r s : Router} {d : Route.Definition} {made more : List Route} {e : Failure}

/-! ## Histories of registrations -/

section

variable [CharacterNames]

/-- Registrations lead from one router to another and make routes on the way, in this order.
Whoever shares the cache may do anything to it in between. -/
inductive Registers (r : Router) : List Route → Router → Prop where
  | start : Registers r [] r
  | add {made : List Route} {s : Router} (d : Route.Definition) : Registers r made s →
      Registers r (made ++ (s.add d).1.toOption.toList) (s.add d).2
  | elsewhere {made : List Route} {s : Router} (cache : Option Cache) : Registers r made s →
      Registers r made { s with cache := cache }

theorem add_routes (r : Router) (d : Route.Definition) :
    (r.add d).2.routes = r.routes ++ (r.add d).1.toOption.toList := by
  have h := r.add_cases d
  generalize r.add d = x at h ⊢
  cases h with
  | refused => exact (List.append_nil _).symm
  | failed => exact (List.append_nil _).symm
  | made => rfl

theorem Registers.routes (h : Registers r made s) : s.routes = r.routes ++ made := by
  induction h with
  | start => exact (List.append_nil _).symm
  | add d _ ih => rw [add_routes, ih, List.append_assoc]
  | elsewhere _ _ ih => exact ih

end

/-! ## The list and the index -/

/-- The entries of an index: every route under its name. -/
def entries (routes : List Route) : List (String × Route) :=
  routes.map fun route => (route.name, route)

/-- The list and the index of a router are in step, and no name is used twice. -/
structure Indexed (r : Router) : Prop where
  index : r.index = Mapping.ofTexts id (entries r.routes)
  distinct : r.names.Nodup

theorem mem_entries_iff {routes : List Route} {name : String} {route : Route} :
    (name, route) ∈ entries routes ↔ route ∈ routes ∧ name = route.name := by
  rw [entries, List.mem_map]
  constructor
  · rintro ⟨other, hm, he⟩
    obtain ⟨rfl, rfl⟩ := Prod.mk.inj he
    exact ⟨hm, rfl⟩
  · rintro ⟨hm, rfl⟩
    exact ⟨route, hm, rfl⟩

theorem entries_names (r : Router) : (entries r.routes).map Prod.fst = r.names := by
  rw [entries, List.map_map]
  rfl

theorem indexed_empty (codec : Codec) (cache : Option Cache) : (empty codec cache).Indexed :=
  ⟨rfl, List.nodup_nil⟩

namespace Indexed

theorem get?_eq_some_iff (h : r.Indexed) {name : Value} {route : Route} :
    Mapping.get? r.index name = some route ↔ route ∈ r.routes ∧ name = .str route.name := by
  have hnames : ((entries r.routes).map Prod.fst).Nodup := by
    rw [entries_names]
    exact h.distinct
  rw [h.index, Mapping.get?_ofTexts_eq_some_iff]
  constructor
  · rintro ⟨text, rfl, hl⟩
    rw [Option.map_id, id, Mapping.lookup_eq_some_iff hnames, mem_entries_iff] at hl
    exact ⟨hl.1, congrArg Value.str hl.2⟩
  · rintro ⟨hm, rfl⟩
    refine ⟨route.name, rfl, ?_⟩
    rw [Option.map_id, id, Mapping.lookup_eq_some_iff hnames, mem_entries_iff]
    exact ⟨hm, rfl⟩

theorem notMem_names (h : r.Indexed) {name : String}
    (hn : Mapping.get? r.index (.str name) = none) : name ∉ r.names := by
  intro hm
  obtain ⟨route, hroute, rfl⟩ := List.mem_map.mp hm
  have hsome := h.get?_eq_some_iff.mpr ⟨hroute, rfl⟩
  rw [hn] at hsome
  cases hsome

theorem add [CharacterNames] (h : r.Indexed) (d : Route.Definition) : (r.add d).2.Indexed := by
  have hadds := r.add_cases d
  generalize r.add d = x at hadds ⊢
  cases hadds with
  | refused => exact h
  | failed => exact ⟨h.index, h.distinct⟩
  | @made route cache _ _ hnew =>
    have hname := h.notMem_names hnew
    constructor
    · have hentries : entries (r.routes ++ [route]) = entries r.routes ++ [(route.name, route)] :=
        List.map_append
      dsimp only
      rw [h.index, hentries]
      rw [← entries_names] at hname
      exact Mapping.insert_ofTexts hname route
    · rw [names, List.map_append, List.nodup_append]
      refine ⟨h.distinct, List.nodup_singleton _, fun name hm other hother => ?_⟩
      obtain rfl := List.mem_singleton.mp hother
      rintro rfl
      exact hname hm

theorem registers [CharacterNames] (h : r.Indexed) (hs : Registers r made s) : s.Indexed := by
  induction hs with
  | start => exact h
  | add d _ ih => exact ih.add d
  | elsewhere _ _ ih => exact ⟨ih.index, ih.distinct⟩

end Indexed

/-! ## Finding -/

theorem find_eq_some_iff {path method : Value} {route : Route} {params : Mapping String} :
    r.find path method = some (route, params) ↔ ∃ earlier later,
      r.routes = earlier ++ route :: later ∧ route.parse path method = some params ∧
        ∀ other ∈ earlier, other.parse path method = none := by
  rw [find, List.findSome?_eq_some_iff]
  simp only [Option.map_eq_some_iff, Option.map_eq_none_iff, Prod.mk.injEq]
  constructor
  · rintro ⟨earlier, _, later, hr, ⟨_, hp, rfl, rfl⟩, hn⟩
    exact ⟨earlier, later, hr, hp, hn⟩
  · rintro ⟨earlier, later, hr, hp, hn⟩
    exact ⟨earlier, route, later, hr, ⟨params, hp, rfl, rfl⟩, hn⟩

theorem Registers.find [CharacterNames] (h : Registers r more s) {path method : Value}
    {found : Route × Mapping String} (hf : r.find path method = some found) :
    s.find path method = some found := by
  rw [Router.find, h.routes, List.findSome?_append]
  rw [Router.find] at hf
  rw [hf, Option.some_or]

/-! ## Registrations that fail -/

/-- Routers with the same routes, whose caches give the same answers. -/
structure Interchangeable (r s : Router) : Prop where
  routes : r.routes = s.routes
  index : r.index = s.index
  codec : r.codec = s.codec
  cache : Option.Rel Cache.Alike r.cache s.cache

theorem rel_refl (cache : Option Cache) : Option.Rel Cache.Alike cache cache := by
  cases cache with
  | none => exact .none
  | some c => exact .some (.refl c)

section

variable [CharacterNames]

theorem compileWith_some (c : Cache) (request : Request) : Route.compileWith (some c) request =
    ((c.compile request).1.map Shared.compiled, some (c.compile request).2) := rfl

theorem compileWith_alike {x y : Option Cache} (h : Option.Rel Cache.Alike x y)
    (request : Request) :
    (Route.compileWith x request).1 = (Route.compileWith y request).1 ∧
      Option.Rel Cache.Alike (Route.compileWith x request).2 (Route.compileWith y request).2 := by
  cases h with
  | none => exact ⟨rfl, .none⟩
  | some h =>
    obtain ⟨hresult, hcache⟩ := h.compile request
    rw [compileWith_some, compileWith_some]
    exact ⟨congrArg (Except.map Shared.compiled) hresult, .some hcache⟩

theorem ofDefinition_alike {x y : Option Cache} (h : Option.Rel Cache.Alike x y)
    (d : Route.Definition) (codec : Codec) :
    (Route.ofDefinition d codec x).1 = (Route.ofDefinition d codec y).1 ∧
      Option.Rel Cache.Alike (Route.ofDefinition d codec x).2
        (Route.ofDefinition d codec y).2 := by
  cases hc : d.check with
  | error e =>
    simp only [Route.ofDefinition, hc]
    exact ⟨trivial, h⟩
  | ok c =>
    obtain ⟨hresult, hcache⟩ := compileWith_alike h c.request
    rw [Route.ofDefinition_checked hc, Route.ofDefinition_checked hc, hresult]
    exact ⟨rfl, hcache⟩

end

namespace Interchangeable

theorem named (h : r.Interchangeable s) : r.named = s.named := by
  unfold Router.named
  rw [h.index]

theorem find (h : r.Interchangeable s) : r.find = s.find := by
  unfold Router.find
  rw [h.routes]

theorem build (h : r.Interchangeable s) : r.build = s.build := by
  unfold Router.build
  rw [h.named]

theorem bundle (h : r.Interchangeable s) : r.bundle = s.bundle := by
  unfold Router.bundle
  rw [h.routes]

theorem add [CharacterNames] (h : r.Interchangeable s) (d : Route.Definition) :
    (r.add d).1 = (s.add d).1 ∧ (r.add d).2.Interchangeable (s.add d).2 := by
  have hrefusal : r.refusal? d.name = s.refusal? d.name := by
    unfold refusal?
    rw [h.named]
  cases hr : r.refusal? d.name with
  | some e =>
    rw [add_refused hr, add_refused (hrefusal ▸ hr)]
    exact ⟨rfl, h⟩
  | none =>
    obtain ⟨hresult, hcache⟩ := ofDefinition_alike h.cache d r.codec
    rw [add_open hr, add_open (hrefusal ▸ hr), ← h.codec, hresult, h.routes, h.index]
    exact ⟨rfl, rfl, rfl, rfl, hcache⟩

theorem wait (h : r.Interchangeable s) (ticks : Nat) :
    (r.wait ticks).Interchangeable (s.wait ticks) := by
  have hcache := h.cache
  refine ⟨h.routes, h.index, h.codec, ?_⟩
  rw [Router.wait, Router.wait]
  generalize r.cache = x at hcache ⊢
  generalize s.cache = y at hcache ⊢
  cases hcache with
  | none => exact .none
  | some hc => exact .some (hc.wait ticks)

theorem call [CharacterNames] (h : r.Interchangeable s) (call : RouterCall) :
    r.answer call = s.answer call ∧ (r.call call).Interchangeable (s.call call) := by
  cases call with
  | add d =>
    obtain ⟨hresult, hnext⟩ := h.add d
    refine ⟨?_, hnext⟩
    rw [answer, answer, hresult]
  | find path method =>
    refine ⟨?_, h⟩
    rw [answer, answer, h.find]
  | build name params =>
    refine ⟨?_, h⟩
    rw [answer, answer, h.build]
  | bundle =>
    refine ⟨?_, h⟩
    rw [answer, answer, h.bundle]
  | wait ticks => exact ⟨rfl, h.wait ticks⟩

theorem answers [CharacterNames] (h : r.Interchangeable s) (calls : List RouterCall) :
    r.answers calls = s.answers calls := by
  induction calls generalizing r s with
  | nil => rfl
  | cons call rest ih =>
    obtain ⟨hanswer, hnext⟩ := h.call call
    rw [Router.answers, Router.answers, hanswer, ih hnext]

end Interchangeable

theorem ofDefinition_failed [CharacterNames] {codec : Codec} {cache : Option Cache}
    (hl : ∀ c ∈ cache, ∀ ticks, c.lifetime ≠ .limited ticks)
    (h : (Route.ofDefinition d codec cache).1 = .error e) :
    Option.Rel Cache.Alike (Route.ofDefinition d codec cache).2 cache := by
  cases hc : d.check with
  | error e =>
    simp only [Route.ofDefinition, hc]
    exact rel_refl cache
  | ok c =>
    rw [Route.ofDefinition_checked hc] at h ⊢
    dsimp only at h ⊢
    cases cache with
    | none => exact .none
    | some cache =>
      cases hr : (cache.compile c.request).1 with
      | error e => exact .some (Cache.compile_failed (hl cache rfl) hr)
      | ok shared =>
        rw [compileWith_some, hr] at h
        cases h

/-- A registration that fails leaves a router that answers every later call as before, also later
registrations, unless entries of the cache have an age to reach. -/
theorem add_failed [CharacterNames] (hl : ∀ c ∈ r.cache, ∀ ticks, c.lifetime ≠ .limited ticks)
    (h : (r.add d).1 = .error e) : (r.add d).2.Interchangeable r := by
  cases hr : r.refusal? d.name with
  | some e' =>
    rw [add_refused hr]
    exact ⟨rfl, rfl, rfl, rel_refl _⟩
  | none =>
    rw [add_open hr] at h ⊢
    dsimp only at h
    rw [h]
    exact ⟨List.append_nil _, rfl, rfl, ofDefinition_failed hl h⟩

theorem forall₂_alike (routes : List Route) : List.Forall₂ Route.Alike routes routes :=
  List.forall₂_same.mpr fun route _ => @Route.Alike.mk route _ (.refl _)

section

variable [CharacterNames]

/-- A router whose cache tells requests apart answers as if it had none. -/
theorem mirrors_uncached {asked : Request → Prop} (h : ∀ c ∈ r.cache, Cache.Sound asked c) :
    Mirrors asked r { r with cache := none } where
  routes := forall₂_alike r.routes
  index := List.forall₂_same.mpr fun e _ => ⟨rfl, @Route.Alike.mk e.2 _ (.refl _)⟩
  codec := rfl
  sound := h
  uncached := rfl

/-- The entries may also grow too old, as long as the cache tells all requests apart. -/
theorem add_failed_distinguished {asked : Request → Prop} (hd : Distinguished asked)
    (hs : ∀ c ∈ r.cache, Cache.Sound asked c) (hr : ∀ c, d.check = .ok c → asked c.request)
    (h : (r.add d).1 = .error e) {calls : List RouterCall}
    (hcalls : ∀ call ∈ calls, ∀ request ∈ call.request?, asked request) :
    (r.add d).2.answers calls = r.answers calls := by
  have hm := mirrors_uncached hs
  obtain ⟨hagree, hnext⟩ := hm.add hd hr
  rw [h] at hagree
  have hfailed : ∃ e', (Router.add { r with cache := none } d).1 = .error e' := by
    generalize (Router.add { r with cache := none } d).1 = result at hagree
    cases hagree with
    | refused e => exact ⟨e, rfl⟩
  obtain ⟨e', he'⟩ := hfailed
  have hnone : ∀ c ∈ (none : Option Cache), ∀ ticks, c.lifetime ≠ .limited ticks := nofun
  calc (r.add d).2.answers calls
      = (Router.add { r with cache := none } d).2.answers calls := hnext.answers hd hcalls
    _ = Router.answers { r with cache := none } calls := (add_failed hnone he').answers calls
    _ = r.answers calls := (hm.answers hd hcalls).symm

/-! ## The registry as a whole -/

/-- What a registration leaves alone where it fails: all but the cache, and with it all answers.
Later registrations go on as before too, where no entry of the cache grows too old or where the
cache tells all requests apart. -/
structure Unaltered (r : Router) (d : Route.Definition) (s : Router) : Prop where
  routes : s.routes = r.routes
  index : s.index = r.index
  codec : s.codec = r.codec
  find : s.find = r.find
  build : s.build = r.build
  bundle : s.bundle = r.bundle
  later : (∀ c ∈ r.cache, ∀ ticks, c.lifetime ≠ .limited ticks) →
    ∀ calls, s.answers calls = r.answers calls
  distinguished : ∀ {asked : Request → Prop}, Distinguished asked →
    (∀ c ∈ r.cache, Cache.Sound asked c) → (∀ c, d.check = .ok c → asked c.request) →
    ∀ calls, (∀ call ∈ calls, ∀ request ∈ call.request?, asked request) →
      s.answers calls = r.answers calls

theorem add_unaltered (h : (r.add d).1 = .error e) : r.Unaltered d (r.add d).2 := by
  have hsame : (r.add d).2 = { r with cache := (r.add d).2.cache } := by
    have hadds := r.add_cases d
    generalize r.add d = x at hadds h ⊢
    cases hadds with
    | refused => rfl
    | failed => rfl
    | made => cases h
  have hnamed : (r.add d).2.named = r.named := by
    rw [hsame]
    rfl
  constructor
  case routes => rw [hsame]
  case index => rw [hsame]
  case codec => rw [hsame]
  case find =>
    rw [hsame]
    rfl
  case build =>
    unfold Router.build
    rw [hnamed]
  case bundle =>
    rw [hsame]
    rfl
  case later => exact fun hl calls => (add_failed hl h).answers calls
  case distinguished => exact fun hd hs hr calls hcalls =>
    add_failed_distinguished hd hs hr h hcalls

/-- The registry of a router: its routes are those that were made, under distinct names, the index
has each under its name, the first that matches is found, and none of it is lost. -/
structure Registry (made : List Route) (r : Router) : Prop where
  routes : r.routes = made
  index : r.index = made.map fun route => (.str route.name, route)
  bundle : r.bundle = made.map Route.descriptor
  distinct : (made.map Route.name).Nodup
  named : ∀ {name : Value} {route : Route},
    r.named name = .ok (some route) ↔ route ∈ made ∧ name = .str route.name
  contains : ∀ {name : Value},
    r.contains name = .ok true ↔ ∃ route ∈ made, name = .str route.name
  /-- Whatever can be a key gets an answer. -/
  answered : ∀ {name : Value}, name.unhashable? = none → ∃ found, r.named name = .ok found
  find : ∀ {path method : Value} {route : Route} {params : Mapping String},
    r.find path method = some (route, params) ↔ ∃ earlier later,
      made = earlier ++ route :: later ∧ route.parse path method = some params ∧
        ∀ other ∈ earlier, other.parse path method = none
  stable : ∀ {path method : Value} {found : Route × Mapping String},
    r.find path method = some found → ∀ {more : List Route} {s : Router}, Registers r more s →
      s.find path method = some found
  failed : ∀ {d : Route.Definition} {e : Failure}, (r.add d).1 = .error e →
    r.Unaltered d (r.add d).2

end

theorem Indexed.named_iff (h : r.Indexed) {name : Value} {route : Route} :
    r.named name = .ok (some route) ↔ route ∈ r.routes ∧ name = .str route.name := by
  rw [← h.get?_eq_some_iff, Router.named]
  cases hn : name.unhashable? with
  | none => exact ⟨Except.ok.inj, congrArg Except.ok⟩
  | some typeName =>
    constructor
    · exact nofun
    · intro hroute
      obtain ⟨-, rfl⟩ := h.get?_eq_some_iff.mp hroute
      cases hn

theorem Indexed.contains_iff (h : r.Indexed) {name : Value} :
    r.contains name = .ok true ↔ ∃ route ∈ r.routes, name = .str route.name := by
  have hsome : r.contains name = .ok true ↔ ∃ route, r.named name = .ok (some route) := by
    rw [Router.contains]
    rcases r.named name with m | _ | route <;> simp [Except.map]
  rw [hsome]
  exact exists_congr fun route => h.named_iff

/-- Whatever is registered, with whatever arguments and in whatever order, the registry holds. -/
theorem registers_registry [CharacterNames] {codec : Codec} {cache : Option Cache}
    (h : Registers (empty codec cache) made r) : Registry made r := by
  have hindexed := (indexed_empty codec cache).registers h
  have hroutes : r.routes = made := h.routes
  constructor
  case routes => exact hroutes
  case index =>
    rw [hindexed.index, hroutes, entries, Mapping.ofTexts, List.map_map]
    rfl
  case bundle => rw [Router.bundle, hroutes]
  case distinct =>
    rw [← hroutes]
    exact hindexed.distinct
  case named =>
    intro name route
    rw [hindexed.named_iff, hroutes]
  case contains =>
    intro name
    rw [hindexed.contains_iff, hroutes]
  case answered =>
    intro name hname
    rw [Router.named, hname]
    exact ⟨_, rfl⟩
  case find =>
    intro path method route params
    rw [find_eq_some_iff, hroutes]
  case stable => exact fun hf _ _ hmore => hmore.find hf
  case failed => exact add_unaltered

/-- A name that is taken and a pattern that cannot be read are refused, and somebody else clears
the cache before the second route is made. -/
theorem registers_registry_refusals : ∃ made r,
    Registers (empty .standard (some (Cache.empty 1 .unlimited true))) made r ∧
      made.map Route.name = ["a", "b"] ∧ Registry made r := by
  let first := empty .standard (some (Cache.empty 1 .unlimited true))
  have h := ((((Registers.start (r := first)).add
    ⟨.str "get", .str "a", .str "/a/<id>", .null, .null⟩).add
    ⟨.str "POST", .str "a", .str "/b", .null, .null⟩).add
    ⟨.str "GET", .str "c", .str "/c(", .null, .null⟩).elsewhere none |>.add
    ⟨.str "GET", .str "b", .str "/<id>", .mapping [(.str "id", .list [.str "x"])], .null⟩
  refine ⟨_, _, h, ?_, registers_registry h⟩
  decide +kernel

end PathRouting.Router
