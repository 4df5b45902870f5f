import PathRouting.Proofs.Pattern.Compilation
import PathRouting.Proofs.Pattern.Decomposing
import PathRouting.Proofs.Pattern.Slots
import PathRouting.Proofs.Regex.Taking

/-!
# Matching decomposes paths

Where no condition is an expression of a user's own, a matcher goes through the decompositions
of a path along its tree, in their order of preference, and gives the values of the first one.
-/
namespace PathRouting.Pattern

open Regex

/-! ## The values of a parameter -/

theorem setHolds_name (c : Char) :
    setHolds .plain false
      [.range 65 90, .range 97 122, .range 48 57, .single 95, .single 45] c = isNameChar c := by
  have hchar : ∀ x y : Char, (x ≤ y) = (x.toNat ≤ y.toNat) := fun x y => rfl
  have hcode : ∀ x : Char, (c = x) = (c.toNat = x.toNat) := fun x => by rw [Char.toNat_inj]
  rw [Bool.eq_iff_iff]
  simp only [setHolds, SetItem.holds, literalHolds, Mode.plain, isNameChar, isLetter, hchar, hcode,
    List.any_cons, List.any_nil, Bool.or_eq_true, Bool.and_eq_true, decide_eq_true_eq, beq_iff_eq,
    bne_iff_ne, Bool.false_eq_true, if_false, ne_eq, Bool.not_eq_false, or_false, Char.reduceToNat]
  omega

theorem ways_nameSet (c : Cursor) : nameSet.ways .plain c = (c.advance? isNameChar).toList := by
  have hp : setHolds .plain false
      [.range 65 90, .range 97 122, .range 48 57, .single 95, .single 45] = isNameChar :=
    funext setHolds_name
  rw [nameSet, Node.ways, hp]

theorem ofCondition_eq_some {value : Value} {a : Allowed}
    (h : Allowed.ofCondition? value = some a) :
    (value = .null ∧ a = .nameRun) ∨ (value = .str ".*" ∧ a = .line) ∨
      ∃ texts, listedValues? value = some texts ∧ texts ≠ [] ∧ a = .oneOf texts := by
  unfold Allowed.ofCondition? at h
  split at h
  · exact .inl ⟨rfl, (Option.some.inj h).symm⟩
  · exact .inr (.inl ⟨rfl, (Option.some.inj h).symm⟩)
  · split at h
    · cases h
    · cases h
    · rename_i texts hne hl
      exact .inr (.inr ⟨texts, hl, hne, (Option.some.inj h).symm⟩)

/-- The group of a parameter under a condition takes the texts that are allowed, in the same
order. -/
def Admits [CharacterNames] (value : Value) (a : Allowed) : Prop :=
  ∀ ⦃groups last : Nat⦄ ⦃body : Node⦄, Fills groups value body last → ∀ c : Cursor,
    List.Forall₂ (Takes c) (a.takes c.rest) (body.ways .plain c)

theorem admits_of_ofCondition [CharacterNames] {value : Value} {a : Allowed}
    (ha : Allowed.ofCondition? value = some a) : Admits value a := by
  intro groups last body h c
  obtain ⟨rfl, rfl⟩ | ⟨rfl, rfl⟩ | ⟨texts, hl, hne, rfl⟩ := ofCondition_eq_some ha
  · cases h with
    | absent => exact takes_plus ways_nameSet c
    | listed hl => cases hl
  · cases h with
    | @expression _ e _ he hshift _ =>
      have hline : ofChars ".*".toList = .ok ⟨.repetition .greedy 0 none .any, 0⟩ := by rfl
      obtain rfl := Except.ok.inj (he.symm.trans hline)
      cases hshift with
      | simple hsimple => cases hsimple
      | repetition _ _ _ hany =>
        cases hany
        exact takes_star (fun c => rfl) c
    | listed hl => cases hl
  · cases h with
    | absent => cases hl
    | expression => cases hl
    | @listed _ texts' hl' =>
      obtain rfl := Option.some.inj (hl.symm.trans hl')
      have ht := takes_alternatives (texts.map String.toList) c
      rw [List.filterMap_map, List.flatMap_map] at ht
      have hw : (anyNode texts).ways .plain c =
          texts.flatMap fun text => (Node.ofList (literals text)).ways .plain c := by
        rw [anyNode, Node.ways, Node.ways_ofAlternatives (by simpa using hne), List.flatMap_map]
      rw [hw]
      exact ht

/-! ## The parts of a tree -/

/-- A way to take text along some parts, and the place where the expressions of the parts end
with the same values and the same text left. -/
structure Agrees (slots : List (String × Nat)) (groups last : Nat) (c : Cursor)
    (way : Captures × List Char) (d : Cursor) : Prop where
  left : d.rest = way.2
  reaches : Reaches (fun n => groups < n ∧ n ≤ last) c d
  found : capturedBy slots d = way.1

variable {condition : String → Except Failure Value} {allowed : String → Allowed}
  {groups middle last : Nat} {slots slots' : List (String × Nat)} {c : Cursor}

theorem agrees_flatMap {rest : List Segment} {ways : List (Captures × List Char)}
    {ds : List Cursor} {walk : Walk}
    (h : List.Forall₂ (Agrees slots groups middle c) ways ds) (hc : Fresh groups c)
    (hs : ∀ slot ∈ slots, slot.2 ≤ middle) (hle : groups ≤ middle) (hle' : middle ≤ last)
    (hrest : ∀ d, Fresh middle d →
      List.Forall₂ (Agrees slots' middle last d) (waysOf allowed rest d.rest) (walk d)) :
    List.Forall₂ (Agrees (slots ++ slots') groups last c)
      (ways.flatMap fun way =>
        (waysOf allowed rest way.2).map fun more => (way.1 ++ more.1, more.2))
      (ds.flatMap walk) := by
  refine List.rel_flatMap h ?_
  intro way d hd
  obtain ⟨taken, hm⟩ := hd.reaches
  have hfresh : Fresh middle d := hc.moved hm hle fun n hn => hn.2
  have hr := hrest d hfresh
  rw [hd.left] at hr
  refine List.forall₂_map_left_iff.mpr (hr.imp ?_)
  intro more e he
  obtain ⟨taken', hm'⟩ := he.reaches
  refine ⟨he.left, ?_, ?_⟩
  · refine (hd.reaches.mono ?_).trans (he.reaches.mono ?_)
    · intro n hn
      exact ⟨hn.1, by omega⟩
    · intro n hn
      exact ⟨by omega, hn.2⟩
  · rw [capturedBy_append, he.found, capturedBy_moved hm', hd.found]
    intro slot hslot hown
    have hb := hs slot hslot
    omega

/-- The expressions of some parts go through the same ways as a search along the tree. -/
theorem Composed.agrees [CharacterNames] {parts : List Segment} {nodes : List Node}
    (h : Composed condition groups parts slots nodes last)
    (ha : ∀ name ∈ Segment.namesOf parts, ∀ value, condition name = .ok value →
      Admits value (allowed name)) (hc : Fresh groups c) :
    List.Forall₂ (Agrees slots groups last c) (waysOf allowed parts c.rest)
      ((Node.ofList nodes).ways .plain c) := by
  induction h generalizing c with
  | nil => exact .cons ⟨rfl, .refl _ c, rfl⟩ .nil
  | @literal text groups last rest slots nodes hrest ih =>
    rw [Node.ways_ofList_append, waysOf]
    have hfirst : List.Forall₂ (Agrees [] groups groups c) (ways allowed (.literal text) c.rest)
        ((Node.ofList (literals text)).ways .plain c) := by
      refine List.forall₂_map_left_iff.mpr
        ((List.forall₂_map_left_iff.mp (takes_literals text.toList c)).imp ?_)
      intro left d hd
      exact ⟨hd.left, ⟨_, hd.moved.mono fun n hn => hn.elim⟩, rfl⟩
    exact agrees_flatMap hfirst hc (by simp) (Nat.le_refl _) hrest.le fun d hd =>
      ih (fun name hn => ha name (by simp [Segment.namesOf, hn])) hd
  | @param name value body groups middle last rest slots nodes hv hf hrest ih =>
    rw [Node.ways_ofList_cons, waysOf]
    have hfirst : List.Forall₂ (Agrees [(name, groups + 1)] groups middle c)
        (ways allowed (.param name) c.rest)
        ((Node.group (some (groups + 1)) body).ways .plain c) := by
      have hvalue := ha name (by simp [Segment.namesOf, Segment.names]) value hv
      have ht := hvalue hf (c.enter (groups + 1))
      refine List.forall₂_map_left_iff.mpr (List.forall₂_map_right_iff.mpr (ht.imp ?_))
      intro way d hd
      refine ⟨hd.left, ⟨way.1, hd.moved.group.mono ?_⟩, ?_⟩
      · rintro n (rfl | hn)
        · exact ⟨Nat.lt_succ_self _, hf.lt⟩
        · exact hn.elim
      · simp [capturedBy, hd.moved.captured_group id]
    exact agrees_flatMap hfirst hc (by simp; exact hf.lt) (by have := hf.lt; omega) hrest.le
      fun d hd => ih (fun name hn => ha name (by simp [Segment.namesOf, hn])) hd
  | @optional dependsOn groups middle last parts rest slots slots' nodes nodes' hp hr ihp ihr =>
    rw [Node.ways_ofList_cons, waysOf]
    have hfirst : List.Forall₂ (Agrees slots groups middle c)
        (ways allowed (.optional dependsOn parts) c.rest)
        ((Node.repetition .greedy 0 (some 1) (.group none (.ofList nodes))).ways .plain c) := by
      rw [Node.ways_optional]
      have hpresent := ihp (fun name hn => ha name
        (by simp [Segment.namesOf, Segment.names, hn])) hc
      have habsent : Agrees slots groups middle c ([], c.rest) c :=
        ⟨rfl, .refl _ c, capturedBy_fresh hc fun slot hs => (hp.slots_bound slot hs).1⟩
      exact List.rel_append hpresent (.cons habsent .nil)
    exact agrees_flatMap hfirst hc (fun slot hs => (hp.slots_bound slot hs).2) hp.le hr.le
      fun d hd => ihr (fun name hn => ha name (by simp [Segment.namesOf, hn])) hd

/-! ## Whole paths -/

theorem wholeNode_matchAll (nodes : List Node) (path : List Char) :
    (wholeNode nodes).matchAll .plain path =
      ((Node.ofList nodes).ways .plain (.start path)).find? fun d => d.rest.isEmpty := by
  rw [Node.matchAll, Node.run_eq_findSome, wholeNode, Node.ways_ofList_cons]
  have hstart : (Node.anchor .lineStart).ways .plain (.start path) = [.start path] := rfl
  rw [hstart, List.flatMap_singleton, Node.ways_ofList_append, Walk.findSome_flatMap]
  rw [← List.findSome?_guard]
  congr 1
  funext d
  cases hd : d.rest.isEmpty with
  | true =>
    have hr : d.rest = [] := List.isEmpty_iff.mp hd
    simp [Node.ofList, Node.ways, Anchor.holds, hr, Option.guard]
  | false =>
    have hr : d.rest ≠ [] := by simpa using hd
    simp only [Node.ofList, Node.ways, Option.guard, hd]
    split <;> simp [hr]

theorem fresh_start (path : List Char) : Fresh 0 (.start path) := fun _ _ => rfl

theorem find_agrees {ways : List (Captures × List Char)} {ds : List Cursor}
    (h : List.Forall₂ (Agrees slots groups last c) ways ds) :
    (ds.find? fun d => d.rest.isEmpty).map (capturedBy slots) =
      (ways.find? fun way => way.2.isEmpty).map Prod.fst := by
  induction h with
  | nil => rfl
  | @cons way d ways ds hd _ ih =>
    rw [List.find?_cons, List.find?_cons, hd.left]
    cases way.2.isEmpty with
    | true => exact congrArg some hd.found
    | false => exact ih

section

variable [CharacterNames]

theorem Composed.run {m : Matcher} {parts : List Segment} {nodes : List Node}
    (h : Composed condition 0 parts m.slots nodes last) (hroot : m.root = wholeNode nodes)
    (ha : ∀ name ∈ Segment.namesOf parts, ∀ value, condition name = .ok value →
      Admits value (allowed name)) (path : String) :
    m.run path = decompose? allowed parts path := by
  have hrun : m.run path = (m.root.matchAll .plain path.toList).map (capturedBy m.slots) := rfl
  rw [hrun, hroot, wholeNode_matchAll, decompose?]
  exact find_agrees (h.agrees ha (fresh_start path.toList))

theorem conditionSource_isOk (name : String) {value : Value} {a : Allowed}
    (h : Allowed.ofCondition? value = some a) :
    (∃ inner, conditionSource name value = .ok inner) ∧
      ∀ source, value = .str source → source = ".*" := by
  obtain ⟨rfl, rfl⟩ | ⟨rfl, rfl⟩ | ⟨texts, hl, hne, rfl⟩ := ofCondition_eq_some h
  · exact ⟨⟨_, rfl⟩, nofun⟩
  · have hline : ofChars ".*".toList = .ok ⟨.repetition .greedy 0 none .any, 0⟩ := by rfl
    refine ⟨⟨⟨".*".toList, 0⟩, by simp only [conditionSource, hline]⟩, ?_⟩
    intro source hs
    exact (Value.str.inj hs).symm
  · constructor
    · unfold conditionSource
      split
      · cases hl
      · cases hl
      · rw [hl]
        cases texts with
        | nil => exact absurd rfl hne
        | cons text texts => exact ⟨_, rfl⟩
    · rintro source rfl
      cases hl

/-- Without expressions of a user's own a tree compiles, and its matcher finds the first
decomposition. -/
theorem Matcher.ofPattern_run {p : Pattern} {conditions : Value} (hn : p.names.Nodup)
    (hc : ∀ name ∈ p.names, ∃ value, conditionOf conditions name = .ok value ∧
      Allowed.ofCondition? value = some (allowed name)) :
    ∃ m, Matcher.ofPattern p conditions = .ok m ∧
      ∀ path, m.run path = decompose? allowed p.parts path := by
  have hs : ∀ name ∈ p.names, ∃ value inner, conditionOf conditions name = .ok value ∧
      conditionSource name value = .ok inner ∧ ∀ source, value = .str source → source = ".*" := by
    intro name hname
    obtain ⟨value, hv, ha⟩ := hc name hname
    obtain ⟨⟨inner, hi⟩, hline⟩ := conditionSource_isOk name ha
    exact ⟨value, inner, hv, hi, hline⟩
  obtain ⟨m, nodes, last, hm, hcomposed, hroot⟩ := Matcher.ofPattern_isOk hn hs
  refine ⟨m, hm, hcomposed.run hroot ?_⟩
  intro name hname value hv
  obtain ⟨value', hv', ha⟩ := hc name hname
  obtain rfl := Except.ok.inj (hv.symm.trans hv')
  exact admits_of_ofCondition ha

/-- A path is matched as it is decomposed along the tree: the matcher fails where there is no
decomposition at all, and gives the values of the first one otherwise. -/
theorem Matcher.run_eq_first_decomposition {p : Pattern} {conditions : Value}
    (allowed : String → Allowed) (hn : p.names.Nodup)
    (hc : ∀ name ∈ p.names, ∃ value, conditionOf conditions name = .ok value ∧
      Allowed.ofCondition? value = some (allowed name)) :
    ∃ m, Matcher.ofPattern p conditions = .ok m ∧ ∀ path,
      m.run path = decompose? allowed p.parts path ∧
      (m.run path = none ↔ ∀ found, ¬Decomposes allowed p.parts path.toList found) ∧
      ∀ found, m.run path = some found → Decomposes allowed p.parts path.toList found := by
  obtain ⟨m, hm, hrun⟩ := Matcher.ofPattern_run hn hc
  refine ⟨m, hm, ?_⟩
  intro path
  rw [hrun path]
  exact ⟨rfl, decompose_eq_none_iff, fun found h => decompose_sound h⟩

end

/-- What was captured in an optional group that is given up is forgotten. -/
theorem Matcher.run_abandoned_group : ∃ m,
    Matcher.ofPattern
        ⟨"(<a>/x)<b>/y", [.optional ["a"] [.param "a", .literal "/x"], .param "b", .literal "/y"],
          none⟩
        (.mapping [(.str "b", .list [.str "a", .str "ab"])]) = .ok m ∧
      m.run "ab/y" = some [("b", "ab")] := by
  have hc : ∀ name ∈ ["a", "b"], ∃ value,
      conditionOf (.mapping [(.str "b", .list [.str "a", .str "ab"])]) name = .ok value ∧
        Allowed.ofCondition? value =
          some (if name = "b" then .oneOf ["a", "ab"] else .nameRun) := by
    intro name hname
    rcases List.mem_pair.mp hname with rfl | rfl
    · exact ⟨.null, rfl, rfl⟩
    · exact ⟨.list [.str "a", .str "ab"], rfl, rfl⟩
  obtain ⟨m, hm, h⟩ := Matcher.run_eq_first_decomposition
    (p := ⟨"(<a>/x)<b>/y", [.optional ["a"] [.param "a", .literal "/x"], .param "b",
      .literal "/y"], none⟩) _ (by decide) hc
  refine ⟨m, hm, (h "ab/y").1.trans ?_⟩
  decide

end PathRouting.Pattern
