import PathRouting.Proofs.Pattern.Transparency
import PathRouting.Proofs.Route.Congruence
import PathRouting.Proofs.Router.Registration
import PathRouting.Router.History

/-!
# Routers whose cache cannot be noticed

A router with a cache answers every call like one without, as long as no two definitions look
alike to the cache that are not alike to the compiler. Beside each other the two routers hold
routes that answer alike, and the cache holds nothing but what was compiled for such routes.
-/
namespace PathRouting

open Pattern

variable {asked : Request → Prop}

/-- All requests that may be asked for have fingerprints, and those that share one compile
alike. -/
structure Pattern.Distinguished [CharacterNames] (asked : Request → Prop) : Prop where
  keyed : ∀ {r}, asked r → ∃ key, r.fingerprint = .ok key
  agree : ∀ {r r'}, asked r → asked r' → r.fingerprint = r'.fingerprint →
    Agree r.compile r'.compile

/-! ## One definition -/

namespace Route

variable {cache : Option Cache} {r : Request} {d : Definition}

variable [CharacterNames]

theorem compileWith_agree (hd : Distinguished asked) (h : ∀ c ∈ cache, Cache.Sound asked c)
    (hr : asked r) : Pattern.Agree (compileWith cache r).1 r.compile := by
  cases cache with
  | none => exact .refl _
  | some c => exact (h c rfl).compile_agree (hd.keyed hr) fun r' hr' hf => hd.agree hr' hr hf

theorem compileWith_sound (h : ∀ c ∈ cache, Cache.Sound asked c) (hr : asked r) :
    ∀ c ∈ (compileWith cache r).2, Cache.Sound asked c := by
  cases cache with
  | none => exact nofun
  | some c =>
    intro c' hc'
    obtain rfl := Option.some.inj hc'
    exact (h c rfl).compile hr

theorem ofDefinition_agree (hd : Distinguished asked) (h : ∀ c ∈ cache, Cache.Sound asked c)
    (hr : ∀ c, d.check = .ok c → asked c.request) (codec : Codec) :
    Agree (ofDefinition d codec cache).1 (ofDefinition d codec none).1 :=
  ofDefinition_agree_none fun c hc => compileWith_agree hd h (hr c hc)

theorem ofDefinition_sound (h : ∀ c ∈ cache, Cache.Sound asked c)
    (hr : ∀ c, d.check = .ok c → asked c.request) (codec : Codec) :
    ∀ c ∈ (ofDefinition d codec cache).2, Cache.Sound asked c := by
  cases hc : d.check with
  | error e =>
    simp only [ofDefinition, hc]
    exact h
  | ok c =>
    rw [ofDefinition_checked hc]
    exact compileWith_sound h (hr c hc)

theorem ofDefinition_uncached (d : Definition) (codec : Codec) :
    (ofDefinition d codec none).2 = none := by
  cases hc : d.check with
  | error e => simp only [ofDefinition, hc]
  | ok c =>
    rw [ofDefinition_checked hc]
    rfl

end Route

/-! ## One call -/

namespace Router

variable {x y : Router}

/-- Indices with the same names in order, under which stand routes that answer alike. -/
def IndexAlike (xs ys : Mapping Route) : Prop :=
  List.Forall₂ (fun e e' => e.1 = e'.1 ∧ e.2.Alike e'.2) xs ys

/-- A router beside one without a cache: they hold routes that answer alike, and what the first
has in its cache was compiled for requests that may be asked for. -/
structure Mirrors [CharacterNames] (asked : Request → Prop) (x y : Router) : Prop where
  routes : List.Forall₂ Route.Alike x.routes y.routes
  index : IndexAlike x.index y.index
  codec : x.codec = y.codec
  sound : ∀ c ∈ x.cache, Cache.Sound asked c
  uncached : y.cache = none

/-- What the first of some routes gives is what the first of routes that answer alike gives. -/
theorem findSome?_alike {β : Type} {f : Route → Option β} {xs ys : List Route}
    (h : List.Forall₂ Route.Alike xs ys) (hf : ∀ {a b}, a.Alike b → f a = f b) :
    xs.findSome? f = ys.findSome? f := by
  induction h with
  | nil => rfl
  | cons hab _ ih => rw [List.findSome?_cons, List.findSome?_cons, hf hab, ih]

theorem IndexAlike.get? {β : Type} {f : Route → β} {xs ys : Mapping Route}
    (h : IndexAlike xs ys) (hf : ∀ {a b}, a.Alike b → f a = f b) (key : Value) :
    (Mapping.get? xs key).map f = (Mapping.get? ys key).map f := by
  induction h with
  | nil => rfl
  | @cons e e' xs ys he _ ih =>
    rw [Mapping.get?, Mapping.get?, he.1]
    split
    · exact congrArg some (hf he.2)
    · exact ih

theorem IndexAlike.insert {xs ys : Mapping Route} {a b : Route} (h : IndexAlike xs ys)
    (hab : a.Alike b) (key : Value) :
    IndexAlike (Mapping.insert xs key a) (Mapping.insert ys key b) := by
  induction h with
  | nil => exact .cons ⟨rfl, hab⟩ .nil
  | @cons e e' xs ys he ht ih =>
    rw [Mapping.insert, Mapping.insert, he.1]
    split
    · exact .cons ⟨rfl, hab⟩ ht
    · exact .cons ⟨rfl, he.2⟩ ih

theorem IndexAlike.added {x y : Except Failure Route} {xs ys : Mapping Route}
    (h : IndexAlike xs ys) (hxy : Route.Agree x y) (key : Value) :
    IndexAlike (x.toOption.elim xs (Mapping.insert xs key))
      (y.toOption.elim ys (Mapping.insert ys key)) := by
  cases hxy with
  | refused e => exact h
  | made hab => exact h.insert hab key

namespace Mirrors

variable [CharacterNames]

theorem named (h : Mirrors asked x y) {β : Type} {f : Route → β}
    (hf : ∀ {a b}, a.Alike b → f a = f b) (name : Value) :
    (x.named name).map (Option.map f) = (y.named name).map (Option.map f) := by
  unfold Router.named
  split
  · rfl
  · exact congrArg Except.ok (h.index.get? hf name)

theorem find (h : Mirrors asked x y) (path method : Value) :
    (x.find path method).map (fun found => (found.1.descriptor, found.2)) =
      (y.find path method).map fun found => (found.1.descriptor, found.2) := by
  rw [Router.find, Router.find, List.map_findSome?, List.map_findSome?]
  refine findSome?_alike h.routes fun {a b} hab => ?_
  simp only [Function.comp_apply, Option.map_map, hab.parse]
  refine congrArg (fun f => (b.parse path method).map f) (funext fun params => ?_)
  exact congrArg (·, params) hab.descriptor

theorem build (h : Mirrors asked x y) (name params : Value) :
    x.build name params = y.build name params := by
  have hbuild : ∀ r : Router, r.build name params =
      Failure.ofMisuse ((r.named name).map (Option.map fun route => route.buildFrom params)) >>=
        fun
          | none => .error (.fault (Fault.routeNotFound name []))
          | some result => Failure.ofMisuse result := by
    intro r
    rw [Router.build]
    rcases r.named name with _ | _ | route <;> rfl
  rw [hbuild x, hbuild y, h.named (fun hab => hab.buildFrom params)]

theorem bundle (h : Mirrors asked x y) : x.bundle = y.bundle := by
  rw [Router.bundle, Router.bundle, ← List.forall₂_eq_eq_eq, List.forall₂_map_left_iff,
    List.forall₂_map_right_iff]
  exact h.routes.imp fun _ _ hab => hab.descriptor

theorem refusal? (h : Mirrors asked x y) (name : Value) : x.refusal? name = y.refusal? name := by
  have hrefusal : ∀ r : Router, r.refusal? name =
      match (r.named name).map (Option.map fun _ => ()) with
      | .error m => some (.misuse m)
      | .ok (some _) => some (.fault (Fault.duplicateRoute name []))
      | .ok none => none := by
    intro r
    rw [Router.refusal?]
    rcases r.named name with _ | _ | route <;> rfl
  rw [hrefusal x, hrefusal y, h.named (fun _ => rfl)]

theorem add (h : Mirrors asked x y) (hd : Distinguished asked) {d : Route.Definition}
    (hr : ∀ c, d.check = .ok c → asked c.request) :
    Route.Agree (x.add d).1 (y.add d).1 ∧ Mirrors asked (x.add d).2 (y.add d).2 := by
  have hrefusal := h.refusal? d.name
  cases hx : x.refusal? d.name with
  | some e =>
    rw [add_refused hx, add_refused (hrefusal ▸ hx)]
    exact ⟨.refused e, h⟩
  | none =>
    have hagree := Route.ofDefinition_agree hd h.sound hr x.codec
    rw [add_open hx, add_open (hrefusal ▸ hx), ← h.codec, h.uncached]
    refine ⟨hagree, ?_⟩
    -- a refused definition adds no route, but it may have changed the cache
    constructor
    case routes => exact List.rel_append h.routes hagree.routes
    case index => exact h.index.added hagree d.name
    case codec => rfl
    case sound => exact Route.ofDefinition_sound h.sound hr x.codec
    case uncached => exact Route.ofDefinition_uncached d x.codec

theorem wait (h : Mirrors asked x y) (ticks : Nat) :
    Mirrors asked (x.wait ticks) (y.wait ticks) := by
  constructor
  case routes => exact h.routes
  case index => exact h.index
  case codec => exact h.codec
  case sound =>
    intro c hc
    obtain ⟨c', hc', rfl⟩ := Option.map_eq_some_iff.mp hc
    exact h.sound c' hc'
  case uncached => exact congrArg (Option.map fun c => c.wait ticks) h.uncached

/-- The routers give the same answer to a call, and again they hold routes that answer alike. -/
theorem call (h : Mirrors asked x y) (hd : Distinguished asked) {call : RouterCall}
    (hr : ∀ r ∈ call.request?, asked r) :
    x.answer call = y.answer call ∧ Mirrors asked (x.call call) (y.call call) := by
  cases call with
  | add d =>
    have hchecked : ∀ c, d.check = .ok c → asked c.request := by
      intro c hc
      refine hr c.request ?_
      rw [RouterCall.request?, hc]
      rfl
    obtain ⟨hagree, hmirrors⟩ := h.add hd hchecked
    exact ⟨congrArg RouterAnswer.added hagree.descriptor, hmirrors⟩
  | find path method => exact ⟨congrArg RouterAnswer.found (h.find path method), h⟩
  | build name params => exact ⟨congrArg RouterAnswer.built (h.build name params), h⟩
  | bundle => exact ⟨congrArg RouterAnswer.bundled h.bundle, h⟩
  | wait ticks => exact ⟨rfl, h.wait ticks⟩

/-! ## Whole runs -/

theorem answers (h : Mirrors asked x y) (hd : Distinguished asked) {calls : List RouterCall}
    (hr : ∀ call ∈ calls, ∀ r ∈ call.request?, asked r) : x.answers calls = y.answers calls := by
  induction calls generalizing x y with
  | nil => rfl
  | cons call rest ih =>
    obtain ⟨hanswer, hnext⟩ := h.call hd (hr call (List.mem_cons_self ..))
    rw [Router.answers, Router.answers, hanswer,
      ih hnext fun call' hm => hr call' (List.mem_cons_of_mem _ hm)]

end Mirrors

/-- A router with a cache answers as one without, whatever it is asked, as long as requests with
one canonical text have conditions of the same kinds and different canonical texts have different
fingerprints. -/
theorem answers_cached [CharacterNames] (codec : Codec) (maxSize : Int) (lifetime : Lifetime)
    (counting : Bool) {calls : List RouterCall} (hkeyed : ∀ d, .add d ∈ calls → d.Keyed)
    (hkinds : ∀ call ∈ calls, ∀ call' ∈ calls, ∀ r ∈ call.request?, ∀ r' ∈ call'.request?,
      r.canonicalText = r'.canonicalText → r.SameKinds r')
    (hcollision : ∀ call ∈ calls, ∀ call' ∈ calls, ∀ r ∈ call.request?, ∀ r' ∈ call'.request?,
      r.fingerprint = r'.fingerprint → r.canonicalText = r'.canonicalText) :
    (empty codec (some (Cache.empty maxSize lifetime counting))).answers calls =
      (empty codec none).answers calls := by
  have hnamed : ∀ call ∈ calls, ∀ r ∈ call.request?,
      ∃ conditions defaults, r.Named conditions defaults := by
    intro call hcall r hr
    cases call with
    | add d =>
      obtain ⟨c, hc, rfl⟩ := Option.map_eq_some_iff.mp hr
      cases hcheck : d.check with
      | error e => rw [hcheck] at hc; cases hc
      | ok c' =>
        rw [hcheck] at hc
        obtain rfl := Option.some.inj hc
        exact (hkeyed d hcall).request hcheck
    | _ => cases hr
  have hd : Distinguished fun r => ∃ call ∈ calls, r ∈ call.request? := by
    constructor
    case keyed =>
      rintro r ⟨call, hcall, hr⟩
      obtain ⟨conditions, defaults, hn⟩ := hnamed call hcall r hr
      exact hn.fingerprint
    case agree =>
      -- one fingerprint means one canonical text, and the kinds settle what that leaves open
      rintro r r' ⟨call, hcall, hr⟩ ⟨call', hcall', hr'⟩ hf
      obtain ⟨conditions, defaults, hn⟩ := hnamed call hcall r hr
      obtain ⟨conditions', defaults', hn'⟩ := hnamed call' hcall' r' hr'
      have ht := hcollision call hcall call' hcall' r hr r' hr' hf
      exact hn.agree_of_sameKinds hn' ht (hkinds call hcall call' hcall' r hr r' hr' ht)
  have hmirrors : Mirrors (fun r => ∃ call ∈ calls, r ∈ call.request?)
      (empty codec (some (Cache.empty maxSize lifetime counting))) (empty codec none) := by
    constructor
    case routes => exact .nil
    case index => exact .nil
    case codec => rfl
    case sound =>
      intro c hc
      obtain rfl := Option.some.inj hc
      exact .empty _ maxSize lifetime counting
    case uncached => rfl
  exact hmirrors.answers hd fun call hcall r hr => ⟨call, hcall, hr⟩

/-- Two routes share what was compiled for one of them, a third definition is refused. -/
theorem answers_cached_shared : ∃ d d' other : Route.Definition,
    d.conditions = .mapping [(.str "id", .list [.str "5", .int 7])] ∧
    d'.conditions = .mapping [(.str "id", .tuple [.int 5, .str "7"])] ∧
    other.conditions = .mapping [(.str "id", .int 5)] ∧
    (empty .standard (some (Cache.empty 1 (.limited 5) true))).answers
      [.add d, .add d', .add other, .wait 9, .find (.str "/a/5") (.str "post"), .bundle] =
    (empty .standard none).answers
      [.add d, .add d', .add other, .wait 9, .find (.str "/a/5") (.str "post"), .bundle] ∧
    ((empty .standard none).run [.add d, .add d', .add other]).names = ["a", "b"] := by
  let request (condition : Value) : Request := ⟨"/a/<id>(?<query_string>)",
    .mapping (Mapping.ofTexts id [("id", condition), (queryParam, .str queryCondition)]),
    .mapping []⟩
  let define (method name : String) (condition : Value) : Route.Definition :=
    ⟨.str method, .str name, .str "/a/<id>", .mapping (Mapping.ofTexts id [("id", condition)]),
      .null⟩
  have hkeyed : ∀ method name condition, (define method name condition).Keyed := fun _ _ _ =>
    ⟨⟨_, .inr rfl, by simp⟩, ⟨[], .inl ⟨rfl, rfl⟩, by simp⟩⟩
  have hkinds : ∀ v w, conditionKind v = conditionKind w → (request v).SameKinds (request w) := by
    intro v w hk p _ name _ v' w' hv' hw'
    simp only [request] at hv' hw'
    rw [conditionOf_ofTexts] at hv' hw'
    obtain rfl := Except.ok.inj hv'
    obtain rfl := Except.ok.inj hw'
    by_cases hname : name = "id"
    · simpa [List.lookup_cons, hname] using hk
    · simp [List.lookup_cons, beq_eq_false_iff_ne.mpr hname]
  have hrequests : ∀ call ∈ [RouterCall.add (define "GET" "a" (.list [.str "5", .int 7])),
      .add (define "POST" "b" (.tuple [.int 5, .str "7"])), .add (define "GET" "c" (.int 5)),
      .wait 9, .find (.str "/a/5") (.str "post"), .bundle], ∀ r ∈ call.request?, ∃ v,
      r = request v ∧ (conditionKind v = "list" ∧
        r.canonicalText = (request (.list [.str "5", .int 7])).canonicalText ∨ v = .int 5) := by
    intro call hcall r hr
    simp only [List.mem_cons, List.not_mem_nil, or_false] at hcall
    rcases hcall with rfl | rfl | rfl | rfl | rfl | rfl
    · obtain rfl : request (.list [.str "5", .int 7]) = r := Option.some.inj hr
      exact ⟨_, rfl, .inl ⟨rfl, rfl⟩⟩
    · obtain rfl : request (.tuple [.int 5, .str "7"]) = r := Option.some.inj hr
      exact ⟨_, rfl, .inl ⟨rfl, rfl⟩⟩
    · obtain rfl : request (.int 5) = r := Option.some.inj hr
      exact ⟨_, rfl, .inr rfl⟩
    · cases hr
    · cases hr
    · cases hr
  have hdiffer : (request (.list [.str "5", .int 7])).fingerprint ≠
      (request (.int 5)).fingerprint := by decide +kernel
  have hnames : ((empty .standard none).run [.add (define "GET" "a" (.list [.str "5", .int 7])),
      .add (define "POST" "b" (.tuple [.int 5, .str "7"])),
      .add (define "GET" "c" (.int 5))]).names = ["a", "b"] := by decide +kernel
  have hfingerprint : ∀ {r r' : Request}, r.canonicalText = r'.canonicalText →
      r.fingerprint = r'.fingerprint := congrArg (Except.map Request.fingerprintOf)
  refine ⟨_, _, _, rfl, rfl, rfl, answers_cached .standard 1 (.limited 5) true ?_ ?_ ?_, hnames⟩
  · simp [hkeyed]
  · intro call hcall call' hcall' r hr r' hr' ht
    obtain ⟨v, rfl, ⟨hk, htext⟩ | rfl⟩ := hrequests call hcall r hr <;>
      obtain ⟨w, rfl, ⟨hk', htext'⟩ | rfl⟩ := hrequests call' hcall' r' hr'
    · exact hkinds v w (hk.trans hk'.symm)
    · exact absurd (hfingerprint (htext.symm.trans ht)) hdiffer
    · exact absurd (hfingerprint (htext'.symm.trans ht.symm)) hdiffer
    · exact hkinds _ _ rfl
  · intro call hcall call' hcall' r hr r' hr' hf
    obtain ⟨v, rfl, ⟨hk, htext⟩ | rfl⟩ := hrequests call hcall r hr <;>
      obtain ⟨w, rfl, ⟨hk', htext'⟩ | rfl⟩ := hrequests call' hcall' r' hr'
    · exact htext.trans htext'.symm
    · exact absurd ((hfingerprint htext).symm.trans hf) hdiffer
    · exact absurd ((hfingerprint htext').symm.trans hf.symm) hdiffer
    · rfl

/-- A text and a number that look the same are one condition to a cache. -/
theorem answers_cached_look_alike :
    let calls : List RouterCall := [
      .add ⟨.str "GET", .str "a", .str "/a/<id>", .mapping [(.str "id", .str "5")], .null⟩,
      .add ⟨.str "GET", .str "b", .str "/a/<id>", .mapping [(.str "id", .int 5)], .null⟩,
      .bundle]
    let cached := empty .standard (some (Cache.empty 1000 .unlimited true))
    let plain := empty .standard none
    cached.answers calls ≠ plain.answers calls ∧ (cached.run calls).names = ["a", "b"] ∧
      (plain.run calls).names = ["a"] := by
  intro calls cached plain
  have hsizes : ∀ r : Router, (r.answers calls).getLast? = some (.bundled (r.run calls).bundle) :=
    fun r => rfl
  have hcached : (cached.run calls).names = ["a", "b"] := by decide +kernel
  have hplain : (plain.run calls).names = ["a"] := by decide +kernel
  refine ⟨fun h => ?_, hcached, hplain⟩
  have hlast := congrArg List.getLast? h
  rw [hsizes, hsizes] at hlast
  have hbundle := RouterAnswer.bundled.inj (Option.some.inj hlast)
  have hlength := congrArg List.length hbundle
  have hnames : ∀ r : Router, r.bundle.length = r.names.length := fun r => by
    rw [bundle, names, List.length_map, List.length_map]
  rw [hnames, hnames, hcached, hplain] at hlength
  cases hlength

end Router

end PathRouting
