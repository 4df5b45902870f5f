import PathRouting.Pattern.Builder
import PathRouting.Proofs.Pattern.Matching
import PathRouting.Proofs.Pattern.Reading
import PathRouting.Proofs.Value.TextKeys

/-!
# Building undoes matching

A match cuts the path into the literal texts and what the parameters captured. The builder puts
them together again: a group that took part is supplied with its direct parameters, and one that
did not has captured nothing.
-/
namespace PathRouting

/-- Every optional group, at any depth, has a direct parameter. -/
inductive Segment.GroupsHoldParams : List Segment → Prop where
  | nil : GroupsHoldParams []
  | literal (text : String) {rest : List Segment} : GroupsHoldParams rest →
      GroupsHoldParams (.literal text :: rest)
  | param (name : String) {rest : List Segment} : GroupsHoldParams rest →
      GroupsHoldParams (.param name :: rest)
  | optional (dependsOn : List String) {name : String} {parts rest : List Segment} :
      .param name ∈ parts → GroupsHoldParams parts → GroupsHoldParams rest →
      GroupsHoldParams (.optional dependsOn parts :: rest)

namespace Pattern

open Regex

theorem mem_namesOf {name : String} {parts : List Segment} (h : .param name ∈ parts) :
    name ∈ Segment.namesOf parts := by
  induction parts with
  | nil => cases h
  | cons part rest ih =>
    rw [Segment.namesOf, List.mem_append]
    rcases List.mem_cons.mp h with rfl | h
    · exact .inl (List.mem_singleton.mpr rfl)
    · exact .inr (ih h)

theorem mem_paramNames {name : String} {parts : List Segment} :
    name ∈ (parts.filterMap Segment.paramName?).eraseDups ↔ .param name ∈ parts := by
  rw [List.mem_eraseDups, List.mem_filterMap]
  constructor
  · rintro ⟨part, hp, hn⟩
    cases part with
    | param other =>
      obtain rfl := Option.some.inj hn
      exact hp
    | _ => cases hn
  · intro h
    exact ⟨.param name, h, rfl⟩

theorem buildParts_append (defaults : Mapping String) (params : Mapping Value)
    (xs ys : List Segment) : buildParts defaults params (xs ++ ys) =
      buildParts defaults params xs ++ buildParts defaults params ys := by
  induction xs with
  | nil => rw [List.nil_append, buildParts, String.empty_append]
  | cons x xs ih => rw [List.cons_append, buildParts, buildParts, ih, String.append_assoc]

section Built

variable {condition : String → Except Failure Value} {groups last : Nat} {parts : List Segment}
  {slots : List (String × Nat)} {nodes : List Node} {params : Mapping Value} {c d : Cursor}

theorem isSupplied_of_given {name text : String} (h : givenText? params name = some text) :
    isSupplied [] params name = true := by
  simp [isSupplied, h, Mapping.named?]

theorem isSupplied_of_missing {name : String} (h : givenText? params name = none) :
    isSupplied [] params name = false := by
  simp [isSupplied, h]

/-- Parameters that are given what the groups have captured. -/
def Given (slots : List (String × Nat)) (params : Mapping Value) (d : Cursor) : Prop :=
  ∀ slot ∈ slots, givenText? params slot.1 = (d.captured? slot.2).map String.ofList

theorem Given.moved {own : Nat → Prop} {taken : List Char} (h : Given slots params d)
    (hm : Moved own taken c d) (hs : ∀ slot ∈ slots, ¬own slot.2) : Given slots params c := by
  intro slot hslot
  rw [h slot hslot, hm.captured (hs slot hslot)]

theorem toList_buildParts_cons (params : Mapping Value) (part : Segment) (rest : List Segment) :
    (buildParts [] params (part :: rest)).toList =
      (buildPart [] params part).toList ++ (buildParts [] params rest).toList := by
  rw [buildParts, String.toList_append]

theorem moved_cons {middle : Nat} {e : Cursor} {part : Segment} {rest : List Segment}
    (h : Moved (fun n => groups < n ∧ n ≤ middle) (buildPart [] params part).toList c e)
    (k : Moved (fun n => middle < n ∧ n ≤ last) (buildParts [] params rest).toList e d)
    (hle : groups ≤ middle) (hle' : middle ≤ last) :
    Moved (fun n => groups < n ∧ n ≤ last) (buildParts [] params (part :: rest)).toList c d := by
  rw [toList_buildParts_cons]
  refine (h.mono ?_).trans (k.mono ?_)
  · intro n hn
    exact ⟨hn.1, by omega⟩
  · intro n hn
    exact ⟨by omega, hn.2⟩

theorem buildPart_of_given {name text : String} {dependsOn : List String}
    (hdepends : dependsOn = (parts.filterMap Segment.paramName?).eraseDups)
    (hname : .param name ∈ parts) (h : givenText? params name = some text) :
    buildPart [] params (.optional dependsOn parts) = buildParts [] params parts := by
  have hany : dependsOn.any (isSupplied [] params) = true := by
    rw [hdepends, List.any_eq_true]
    exact ⟨name, mem_paramNames.mpr hname, isSupplied_of_given h⟩
  rw [buildPart, if_pos hany]

theorem buildPart_of_missing {dependsOn : List String}
    (hdepends : dependsOn = (parts.filterMap Segment.paramName?).eraseDups)
    (h : ∀ name ∈ Segment.namesOf parts, givenText? params name = none) :
    buildPart [] params (.optional dependsOn parts) = "" := by
  have hany : ¬dependsOn.any (isSupplied [] params) = true := by
    rw [hdepends, List.any_eq_true]
    rintro ⟨name, hname, hs⟩
    rw [isSupplied_of_missing (h name (mem_namesOf (mem_paramNames.mp hname)))] at hs
    cases hs
  rw [buildPart, if_neg hany]

/-- What a group took is what the builder writes for it: one that took part has given its direct
parameter a value, any other gave none. -/
theorem Composed.built_optional [CharacterNames]
    (h : Composed condition groups parts slots nodes last) {dependsOn : List String}
    {name : String} (hdepends : dependsOn = (parts.filterMap Segment.paramName?).eraseDups)
    (hname : .param name ∈ parts) (hc : Fresh groups c)
    (hd : d ∈ (Node.ofList nodes).ways .plain c ++ [c]) (hgiven : Given slots params d)
    (hbuilt : d ∈ (Node.ofList nodes).ways .plain c →
      Moved (fun n => groups < n ∧ n ≤ last) (buildParts [] params parts).toList c d ∧
        ∀ name, .param name ∈ parts → (givenText? params name).isSome) :
    Moved (fun n => groups < n ∧ n ≤ last)
      (buildPart [] params (.optional dependsOn parts)).toList c d := by
  rcases List.mem_append.mp hd with hd | hd
  · obtain ⟨hparts, hdirect⟩ := hbuilt hd
    obtain ⟨text, htext⟩ := Option.isSome_iff_exists.mp (hdirect name hname)
    rw [buildPart_of_given hdepends hname htext]
    exact hparts
  · obtain rfl := List.mem_singleton.mp hd
    have hmissing : ∀ name ∈ Segment.namesOf parts, givenText? params name = none := by
      intro name hmem
      rw [← h.names] at hmem
      obtain ⟨slot, hslot, rfl⟩ := List.mem_map.mp hmem
      rw [hgiven slot hslot, hc.captured (h.slots_bound slot hslot).1]
      rfl
    rw [buildPart_of_missing hdepends hmissing]
    exact .refl _ d

theorem Composed.built [CharacterNames] (h : Composed condition groups parts slots nodes last)
    (hcanonical : Segment.Canonical parts) (hgroups : Segment.GroupsHoldParams parts)
    (hc : Fresh groups c) (hd : d ∈ (Node.ofList nodes).ways .plain c)
    (hgiven : Given slots params d) :
    Moved (fun n => groups < n ∧ n ≤ last) (buildParts [] params parts).toList c d ∧
      ∀ name, .param name ∈ parts → (givenText? params name).isSome := by
  induction h generalizing c d with
  | nil =>
    obtain rfl := List.mem_singleton.mp hd
    exact ⟨.refl _ d, nofun⟩
  | @literal text groups last rest slots nodes hrest ih =>
    rw [Node.ways_ofList_append] at hd
    obtain ⟨e, he, hd⟩ := List.mem_flatMap.mp hd
    have hm : Moved (fun n => groups < n ∧ n ≤ groups) text.toList c e :=
      (moved_of_mem_literals he).mono fun n hn => hn.elim
    cases hcanonical with
    | literal _ _ _ _ _ hcrest =>
      cases hgroups with
      | literal _ hgrest =>
        have hfresh : Fresh groups e := hc.moved hm (Nat.le_refl _) fun n hn => hn.2
        obtain ⟨hbuilt, hnames⟩ := ih hcrest hgrest hfresh hd hgiven
        refine ⟨moved_cons hm hbuilt (Nat.le_refl _) hrest.le, ?_⟩
        intro name hname
        exact hnames name (by simpa using hname)
  | @param name value body groups middle last rest slots nodes hv hf hrest ih =>
    rw [Node.ways_ofList_cons] at hd
    obtain ⟨e, he, hd⟩ := List.mem_flatMap.mp hd
    obtain ⟨i, hi, rfl⟩ := List.mem_map.mp he
    obtain ⟨taken, hm, hcaptured⟩ := hf.captured hi
    cases hcanonical with
    | param _ hcrest =>
      cases hgroups with
      | param _ hgrest =>
        have hfresh : Fresh middle (i.leave (groups + 1)) :=
          hc.moved hm (Nat.le_of_lt hf.lt) fun n hn => hn.2
        obtain ⟨hbuilt, hnames⟩ := ih hcrest hgrest hfresh hd fun slot hslot =>
          hgiven slot (List.mem_cons_of_mem _ hslot)
        have hvalue : givenText? params name = some (String.ofList taken) := by
          have hl := hf.lt
          rw [hgiven (name, groups + 1) (List.mem_cons_self ..),
            hbuilt.captured (by dsimp only; omega), hcaptured]
          rfl
        have hpart : (buildPart [] params (.param name)).toList = taken := by
          simp [buildPart, hvalue]
        refine ⟨moved_cons (hpart.symm ▸ hm) hbuilt (Nat.le_of_lt hf.lt) hrest.le, ?_⟩
        intro other hother
        rcases List.mem_cons.mp hother with he | hother
        · obtain rfl := Segment.param.inj he
          rw [hvalue]
          rfl
        · exact hnames other hother
  | @optional dependsOn groups middle last parts rest slots slots' nodes nodes' hp hr ihp ihr =>
    rw [Node.ways_ofList_cons] at hd
    obtain ⟨e, he, hd⟩ := List.mem_flatMap.mp hd
    rw [Node.ways_optional] at he
    cases hcanonical with
    | @optional _ _ _ hdepends hcparts hcrest =>
      cases hgroups with
      | @optional _ name _ _ hname hgparts hgrest =>
        obtain ⟨taken, hm⟩ := hp.reaches_optional he
        obtain ⟨hbuilt, hnames⟩ := ihr hcrest hgrest
          (hc.moved hm hp.le fun n hn => hn.2) hd fun slot hslot =>
            hgiven slot (List.mem_append_right _ hslot)
        have hinner : Given slots params e := by
          have hfirst : Given slots params d := fun slot hslot =>
            hgiven slot (List.mem_append_left _ hslot)
          refine hfirst.moved hbuilt ?_
          intro slot hslot hn
          have hb := hp.slots_bound slot hslot
          omega
        have hpart := hp.built_optional hdepends hname hc he hinner fun he =>
          ihp hcparts hgparts hc he hinner
        refine ⟨moved_cons hpart hbuilt hp.le hr.le, ?_⟩
        intro other hother
        exact hnames other (by simpa using hother)

theorem lookup_capturedBy_of_notMem {name : String} (h : name ∉ slots.map Prod.fst) :
    (capturedBy slots d).lookup name = none := by
  rw [List.lookup_eq_none_iff]
  rintro ⟨other, text⟩ hm
  obtain ⟨slot, hs, he⟩ := List.mem_filterMap.mp hm
  obtain ⟨_, _, he⟩ := Option.map_eq_some_iff.mp he
  obtain ⟨rfl, -⟩ := Prod.mk.inj he
  rw [bne_iff_ne]
  rintro rfl
  exact h (List.mem_map_of_mem hs)

theorem lookup_capturedBy (hn : (slots.map Prod.fst).Nodup) {slot : String × Nat}
    (hs : slot ∈ slots) :
    (capturedBy slots d).lookup slot.1 = (d.captured? slot.2).map String.ofList := by
  induction slots with
  | nil => cases hs
  | cons first slots ih =>
    rw [List.map_cons, List.nodup_cons] at hn
    have hcons : capturedBy (first :: slots) d =
        ((d.captured? first.2).map fun text => (first.1, String.ofList text)).toList ++
          capturedBy slots d := by
      rw [capturedBy, List.filterMap_cons]
      cases d.captured? first.2 <;> rfl
    rw [hcons]
    rcases List.mem_cons.mp hs with rfl | hs
    · cases hc : d.captured? slot.2 with
      | none => exact lookup_capturedBy_of_notMem hn.1
      | some text => simp
    · have hne : (slot.1 == first.1) = false := by
        rw [beq_eq_false_iff_ne]
        intro he
        exact hn.1 (he ▸ List.mem_map_of_mem hs)
      cases d.captured? first.2 with
      | none => exact ih hn.2 hs
      | some text =>
        rw [← ih hn.2 hs]
        simp [List.lookup_cons, hne]

theorem given_capturedBy (hn : (slots.map Prod.fst).Nodup) :
    Given slots (Mapping.ofTexts .str (capturedBy slots d)) d := by
  intro slot hs
  rw [givenText?, Mapping.named?_ofTexts, lookup_capturedBy hn hs]
  cases d.captured? slot.2 <;> rfl

end Built

theorem Builder.buildFrom_mapping (b : Builder) (es : Mapping Value) :
    b.buildFrom (.mapping es) = .ok (b.build es) := by
  cases es <;> rfl

/-- The builder gives back the path from what the matcher finds in it, whatever the conditions
are. -/
theorem Builder.buildFrom_matched [CharacterNames] {file : Option String} {source path : String}
    {p : Pattern}
    {conditions : Value} {m : Matcher} {found : Captures} (hp : parse file source = .ok p)
    (hg : Segment.GroupsHoldParams p.parts) (hm : Matcher.ofPattern p conditions = .ok m)
    (hfound : m.run path = some found) :
    ∃ b, Builder.ofPattern p .null = .ok b ∧
      b.buildFrom (.mapping (found.map fun e => (.str e.1, .str e.2))) = .ok path := by
  obtain ⟨d, hmatch, rfl⟩ := Option.map_eq_some_iff.mp hfound
  obtain ⟨hn, nodes, last, hcomposed, hroot, -⟩ := Matcher.ofPattern_ok hm
  rw [hroot, wholeNode_matchAll] at hmatch
  have hd := List.mem_of_find?_eq_some hmatch
  have hend : d.rest = [] := by simpa using List.find?_some hmatch
  have hnames : (m.slots.map Prod.fst).Nodup := by
    rw [hcomposed.names]
    exact hn
  obtain ⟨hmoved, -⟩ := hcomposed.built (parse_sound hp).2.2.2 hg (fresh_start path.toList) hd
    (given_capturedBy hnames)
  refine ⟨⟨p, []⟩, rfl, ?_⟩
  rw [buildFrom_mapping]
  have hpath := hmoved.rest
  rw [hend, List.append_nil] at hpath
  exact congrArg Except.ok (String.toList_inj.mp hpath.symm)

/-- Conditions with groups of their own, a look-ahead and a reference to another parameter's
group. -/
theorem Builder.buildFrom_matched_references : ∃ p m b,
    parse none "/a(/<x>(-<y>))" = .ok p ∧
    Matcher.ofPattern p
      (.mapping [(.str "x", .str "(b|\\N\x7bDIGIT ONE\x7d)d(?=-)"),
        (.str "y", .str "(.)\\1")]) = .ok m ∧
    m.run "/a/1d-e1d" = some [("x", "1d"), ("y", "e1d")] ∧ Builder.ofPattern p .null = .ok b ∧
    b.buildFrom (.mapping [(.str "x", .str "1d"), (.str "y", .str "e1d")]) = .ok "/a/1d-e1d" := by
  have hp : parse none "/a(/<x>(-<y>))" = .ok ⟨"/a(/<x>(-<y>))",
      [.literal "/a", .optional ["x"] [.literal "/", .param "x",
        .optional ["y"] [.literal "-", .param "y"]]], none⟩ := by rfl
  have hg : Segment.GroupsHoldParams [.literal "/a", .optional ["x"] [.literal "/", .param "x",
      .optional ["y"] [.literal "-", .param "y"]]] :=
    .literal _ <| .optional _ (.tail _ (.head _)) (.literal _ <| .param _ <|
      .optional _ (.tail _ (.head _)) (.literal _ <| .param _ .nil) .nil) .nil
  have hrun : ((Matcher.ofPattern ⟨"/a(/<x>(-<y>))",
      [.literal "/a", .optional ["x"] [.literal "/", .param "x",
        .optional ["y"] [.literal "-", .param "y"]]], none⟩
      (.mapping [(.str "x", .str "(b|\\N\x7bDIGIT ONE\x7d)d(?=-)"),
        (.str "y", .str "(.)\\1")])).toOption.bind
        fun m => m.run "/a/1d-e1d") = some [("x", "1d"), ("y", "e1d")] := by decide +kernel
  generalize hm : Matcher.ofPattern _ _ = result at hrun
  cases result with
  | error e => cases hrun
  | ok m =>
    obtain ⟨b, hb, hbuilt⟩ := Builder.buildFrom_matched hp hg hm hrun
    exact ⟨_, m, b, hp, hm, hrun, hb, hbuilt⟩

end Pattern

end PathRouting
