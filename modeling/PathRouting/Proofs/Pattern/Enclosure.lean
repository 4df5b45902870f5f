import Mathlib.Algebra.Ring.Nat
import PathRouting.Pattern.Parser
import PathRouting.Proofs.Pattern.Compilation
import PathRouting.Proofs.Pattern.Slots

/-!
# Conditions inside their brackets

The source of a tree is read into the expressions of its parts, and the group of a parameter
holds just what its condition is read into on its own. So no condition can close its group,
change what stands beside it, or move the group of another parameter.
-/
namespace PathRouting.Pattern

open Regex

/-! ## The expression of a tree, from the contents of the parameters' groups -/

mutual

def nodesOf (number : String → Nat) (body : String → Node) : Segment → List Node
  | .literal text => literals text
  | .param name => [.group (some (number name)) (body name)]
  | .optional _ parts =>
    [.repetition .greedy 0 (some 1) (.group none (.ofList (nodesOfAll number body parts)))]

def nodesOfAll (number : String → Nat) (body : String → Node) : List Segment → List Node
  | [] => []
  | part :: rest => nodesOf number body part ++ nodesOfAll number body rest

end

theorem nodesOfAll_congr {number number' : String → Nat} {body body' : String → Node}
    {parts : List Segment} (hn : ∀ name ∈ Segment.namesOf parts, number name = number' name)
    (hb : ∀ name ∈ Segment.namesOf parts, body name = body' name) :
    nodesOfAll number body parts = nodesOfAll number' body' parts := by
  induction parts using Segment.sequence_induction with
  | nil => rfl
  | literal text rest ih =>
    simp only [nodesOfAll, nodesOf]
    rw [ih (fun name h => hn name (by simp [Segment.namesOf, h]))
      fun name h => hb name (by simp [Segment.namesOf, h])]
  | param name rest ih =>
    have hmem : name ∈ Segment.namesOf (.param name :: rest) := by
      simp [Segment.namesOf, Segment.names]
    simp only [nodesOfAll, nodesOf]
    rw [hn name hmem, hb name hmem, ih (fun name h => hn name (by simp [Segment.namesOf, h]))
      fun name h => hb name (by simp [Segment.namesOf, h])]
  | optional dependsOn parts rest ihp ihr =>
    simp only [nodesOfAll, nodesOf]
    rw [ihp (fun name h => hn name (by simp [Segment.namesOf, Segment.names, h]))
        fun name h => hb name (by simp [Segment.namesOf, Segment.names, h]),
      ihr (fun name h => hn name (by simp [Segment.namesOf, h]))
        fun name h => hb name (by simp [Segment.namesOf, h])]

/-- Contents for some names from one place, and for all other names from another one. -/
def eitherOf (names : List String) (body body' : String → Node) (name : String) : Node :=
  if name ∈ names then body name else body' name

section EitherOf

variable {names : List String} {number : String → Nat} {body body' : String → Node}
  {parts : List Segment}

theorem nodesOfAll_eitherOf_left (h : ∀ name ∈ Segment.namesOf parts, name ∈ names) :
    nodesOfAll number (eitherOf names body body') parts = nodesOfAll number body parts :=
  nodesOfAll_congr (fun _ _ => rfl) fun name hm => if_pos (h name hm)

theorem nodesOfAll_eitherOf_right (h : ∀ name ∈ Segment.namesOf parts, name ∉ names) :
    nodesOfAll number (eitherOf names body body') parts = nodesOfAll number body' parts :=
  nodesOfAll_congr (fun _ _ => rfl) fun name hm => if_neg (h name hm)

/-- What is true of the contents for two lists of slots is true of them together, as long as the
names in one list are not in the other. -/
theorem forall_eitherOf {slots slots' : List (String × Nat)} {holds : String × Nat → Node → Prop}
    (h : ∀ slot ∈ slots, slot.1 ∈ names) (h' : ∀ slot ∈ slots', slot.1 ∉ names)
    (hb : ∀ slot ∈ slots, holds slot (body slot.1))
    (hb' : ∀ slot ∈ slots', holds slot (body' slot.1)) :
    ∀ slot ∈ slots ++ slots', holds slot (eitherOf names body body' slot.1) := by
  intro slot hs
  rcases List.mem_append.mp hs with hs | hs
  · rw [eitherOf, if_pos (h slot hs)]
    exact hb slot hs
  · rw [eitherOf, if_neg (h' slot hs)]
    exact hb' slot hs

end EitherOf

/-! ## Conditions on their own -/

/-- The number of capturing groups in the condition on a parameter. -/
def conditionGroups [CharacterNames] (condition : String → Except Failure Value) (name : String) :
    Nat :=
  match condition name >>= conditionSource name with
  | .ok inner => inner.groups
  | .error _ => 0

/-- A parameter's group has a number and holds what the condition is read into on its own, with
the groups in it moved behind that number. -/
def Encloses [CharacterNames] (condition : String → Except Failure Value) (name : String)
    (number : Nat) (body : Node) : Prop :=
  ∃ value inner e, condition name = .ok value ∧ conditionSource name value = .ok inner ∧
    ofChars inner.source = .ok e ∧ e.groups = conditionGroups condition name ∧
    e.root.Shifted number body

/-- The number of the group of a parameter: each one before it has a group, and so have the
groups in their conditions. -/
def groupNumber (count : String → Nat) (names : List String) (i : Nat) : Nat :=
  1 + i + ((names.take i).map count).sum

theorem ofChars_anyOf [CharacterNames] {texts : List String} (hne : texts ≠ []) :
    ofChars (anyOf texts) = .ok ⟨anyNode texts, 0⟩ := by
  obtain ⟨b, hx, hg, hread⟩ := pushAll_anyOf (a := .start) hne rfl []
  have hnode : b.level.node = anyNode texts := hx.node rfl
  have hb : Assembly.pushAll 0 b [] = .ok b := by rw [Assembly.pushAll]
  rw [List.append_nil, hb] at hread
  have hw : (Token.ofChars (anyOf texts)).2 = false := by rw [anyOf_tokens]
  have hharm : Harmless (anyNode texts) := by
    intro groups
    exact harmless_ofAlternatives (fun x hx => by
      obtain ⟨text, -, rfl⟩ := List.mem_map.mp hx
      exact harmless_ofList (harmless_literals text)) groups
  have h := ofChars_of_harmless hw hread hx.frames hx.flags (hx.asked.resolve_left id)
    (hnode ▸ hharm)
  rw [hnode, hg] at h
  exact h

theorem shifted_literals (n : Nat) (text : String) :
    List.Forall₂ (Node.Shifted n) (literals text) (literals text) := by
  refine List.forall₂_same.mpr fun x hx => ?_
  obtain ⟨c, -, rfl⟩ := List.mem_map.mp hx
  exact .simple rfl

theorem shifted_anyNode (n : Nat) (texts : List String) :
    (anyNode texts).Shifted n (anyNode texts) := by
  refine .group none (.ofAlternatives (List.forall₂_same.mpr fun x hx => ?_))
  obtain ⟨text, -, rfl⟩ := List.mem_map.mp hx
  exact .ofList (shifted_literals n text)

theorem conditionSource_listed [CharacterNames] {name : String} {value : Value}
    {texts : List String} (hl : listedValues? value = some texts) (hne : texts ≠ []) :
    conditionSource name value = .ok ⟨anyOf texts, 0⟩ := by
  unfold conditionSource
  split
  · cases hl
  · cases hl
  · rw [hl]
    cases texts with
    | nil => exact absurd rfl hne
    | cons text texts => rfl

theorem Fills.encloses [CharacterNames] {condition : String → Except Failure Value} {name : String}
    {groups last : Nat} {value : Value} {body : Node} (hv : condition name = .ok value)
    (h : Fills groups value body last) : Encloses condition name (groups + 1) body ∧
      last = groups + 1 + conditionGroups condition name := by
  suffices hs : ∃ inner e, conditionSource name value = .ok inner ∧
      ofChars inner.source = .ok e ∧ inner.groups = e.groups ∧
      e.root.Shifted (groups + 1) body ∧ last = groups + 1 + e.groups by
    obtain ⟨inner, e, hi, he, hg, hshift, hlast⟩ := hs
    have hc : conditionGroups condition name = e.groups := by
      rw [conditionGroups, bind_eq_ok.mpr ⟨value, hv, hi⟩]
      exact hg
    exact ⟨⟨value, inner, e, hv, hi, he, hc.symm, hshift⟩, hc ▸ hlast⟩
  cases h with
  | absent => exact ⟨⟨plainValueSource.toList, 0⟩, ⟨nameRun, 0⟩, rfl, by rfl, rfl,
      .repetition _ _ _ (.simple rfl), rfl⟩
  | @expression source e _ he hshift _ =>
    have hi : conditionSource name (.str source) = .ok ⟨source.toList, e.groups⟩ := by
      simp only [conditionSource, he]
    exact ⟨_, e, hi, he, rfl, hshift, rfl⟩
  | @listed _ texts hl hne =>
    exact ⟨_, _, conditionSource_listed hl hne, ofChars_anyOf hne, rfl,
      shifted_anyNode _ texts, rfl⟩

/-! ## The whole tree -/

namespace Composed

variable {condition : String → Except Failure Value} {groups last : Nat} {parts : List Segment}
  {slots : List (String × Nat)} {nodes : List Node}

theorem slots_eq [CharacterNames] (h : Composed condition groups parts slots nodes last) :
    slots = (Segment.namesOf parts).mapIdx (fun i name =>
      (name, groups + groupNumber (conditionGroups condition) (Segment.namesOf parts) i)) ∧
    last = groups + (Segment.namesOf parts).length +
      ((Segment.namesOf parts).map (conditionGroups condition)).sum := by
  induction h with
  | nil => exact ⟨rfl, rfl⟩
  | literal text _ ih => exact ih
  | @param name value body groups middle last rest slots nodes hv hf _ ih =>
    obtain ⟨ihs, ihl⟩ := ih
    obtain ⟨-, hm⟩ := hf.encloses hv
    have hnames : Segment.namesOf (.param name :: rest) = name :: Segment.namesOf rest := rfl
    rw [hnames, List.mapIdx_cons, List.map_cons, List.sum_cons, List.length_cons]
    refine ⟨?_, by omega⟩
    have hstep : ∀ i, groups + groupNumber (conditionGroups condition)
        (name :: Segment.namesOf rest) (i + 1) =
        middle + groupNumber (conditionGroups condition) (Segment.namesOf rest) i := by
      intro i
      simp only [groupNumber, List.take_succ_cons, List.map_cons, List.sum_cons]
      omega
    simp only [hstep]
    rw [ihs]
    rfl
  | @optional dependsOn groups middle last parts rest slots slots' nodes nodes' _ _ ihp ihr =>
    obtain ⟨ihps, ihpl⟩ := ihp
    obtain ⟨ihrs, ihrl⟩ := ihr
    have hnames : Segment.namesOf (.optional dependsOn parts :: rest) =
      Segment.namesOf parts ++ Segment.namesOf rest := rfl
    rw [hnames, List.mapIdx_append, List.map_append, List.sum_append, List.length_append]
    refine ⟨?_, by omega⟩
    rw [ihps, ihrs]
    congr 1
    · refine List.mapIdx_eq_mapIdx_iff.mpr fun i hi => ?_
      rw [groupNumber, groupNumber, List.take_append_of_le_length (Nat.le_of_lt hi)]
    · refine List.mapIdx_eq_mapIdx_iff.mpr fun i hi => ?_
      rw [groupNumber, groupNumber, Nat.add_comm i, List.take_length_add_append, List.map_append,
        List.sum_append]
      congr 1
      omega

/-- The expressions are those of the tree, with conditions as they are read on their own. -/
theorem nodes_eq [CharacterNames] (h : Composed condition groups parts slots nodes last)
    (hn : (Segment.namesOf parts).Nodup) : ∃ body : String → Node,
      (∀ slot ∈ slots, Encloses condition slot.1 slot.2 (body slot.1)) ∧
      ∀ number : String → Nat, (∀ slot ∈ slots, number slot.1 = slot.2) →
        nodes = nodesOfAll number body parts := by
  induction h with
  | nil => exact ⟨fun _ => .empty, by simp, fun _ _ => rfl⟩
  | literal text _ ih =>
    obtain ⟨body, hb, hnodes⟩ := ih hn
    exact ⟨body, hb, fun number hnum => by rw [nodesOfAll, nodesOf, ← hnodes number hnum]⟩
  | @param name value own groups middle last rest slots nodes hv hf hc ih =>
    have hnames : Segment.namesOf (.param name :: rest) = name :: Segment.namesOf rest := rfl
    rw [hnames, List.nodup_cons] at hn
    obtain ⟨body, hb, hnodes⟩ := ih hn.2
    -- the names differ, so that the parameter's group can be chosen for itself
    have hother : ∀ other ∈ Segment.namesOf rest, other ∉ [name] := fun other ho he =>
      hn.1 (List.mem_singleton.mp he ▸ ho)
    have hslot : ∀ slot ∈ slots, slot.1 ∉ [name] := fun slot hs =>
      hother _ (hc.names ▸ List.mem_map_of_mem hs)
    refine ⟨eitherOf [name] (fun _ => own) body, ?_, ?_⟩
    · have hfirst : ∀ slot ∈ [(name, groups + 1)], Encloses condition slot.1 slot.2 own := by
        intro slot hs
        obtain rfl := List.mem_singleton.mp hs
        exact (hf.encloses hv).1
      have hname : ∀ slot ∈ [(name, groups + 1)], slot.1 ∈ [name] := by simp
      exact forall_eitherOf hname hslot hfirst hb
    · intro number hnum
      have hfirst : number name = groups + 1 := hnum (name, groups + 1) (List.mem_cons_self ..)
      have hown : eitherOf [name] (fun _ => own) body name = own := if_pos (by simp)
      rw [nodesOfAll, nodesOf, hfirst, hown, nodesOfAll_eitherOf_right hother,
        ← hnodes number fun slot hs => hnum slot (List.mem_cons_of_mem _ hs)]
      rfl
  | @optional dependsOn groups middle last parts rest slots slots' nodes nodes' hp hr ihp ihr =>
    have hnames : Segment.namesOf (.optional dependsOn parts :: rest) =
      Segment.namesOf parts ++ Segment.namesOf rest := rfl
    rw [hnames, List.nodup_append] at hn
    obtain ⟨hnp, hnr, hdisjoint⟩ := hn
    obtain ⟨body, hb, hnodes⟩ := ihp hnp
    obtain ⟨body', hb', hnodes'⟩ := ihr hnr
    have hother : ∀ other ∈ Segment.namesOf rest, other ∉ Segment.namesOf parts :=
      fun other ho hm => hdisjoint other hm other ho rfl
    have hslot : ∀ slot ∈ slots, slot.1 ∈ Segment.namesOf parts := fun slot hs =>
      hp.names ▸ List.mem_map_of_mem hs
    have hslot' : ∀ slot ∈ slots', slot.1 ∉ Segment.namesOf parts := fun slot hs =>
      hother _ (hr.names ▸ List.mem_map_of_mem hs)
    refine ⟨eitherOf (Segment.namesOf parts) body body', forall_eitherOf hslot hslot' hb hb', ?_⟩
    intro number hnum
    rw [nodesOfAll, nodesOf, nodesOfAll_eitherOf_left fun _ hm => hm,
      nodesOfAll_eitherOf_right hother,
      ← hnodes number fun slot hs => hnum slot (List.mem_append_left _ hs),
      ← hnodes' number fun slot hs => hnum slot (List.mem_append_right _ hs)]
    rfl

end Composed

/-- A condition cannot leave its brackets. The source of a matcher is read into the expression of
the tree in which every parameter's group holds what its condition is read into on its own; the
parameters are those of the tree in order, and the number of each one's group counts the groups
before it. -/
theorem Matcher.ofPattern_encloses [CharacterNames] {p : Pattern} {conditions : Value} {m : Matcher}
    (h : Matcher.ofPattern p conditions = .ok m) :
    let count := conditionGroups (conditionOf conditions)
    let number := fun name => groupNumber count p.names (p.names.idxOf name)
    m.order = p.names ∧
    m.indices = (List.range p.names.length).map (groupNumber count p.names) ∧
    ∃ body : String → Node,
      (∀ name ∈ p.names, Encloses (conditionOf conditions) name (number name) (body name)) ∧
      m.root = wholeNode (nodesOfAll number body p.parts) ∧
      ofChars m.source.toList = .ok ⟨m.root, p.names.length + (p.names.map count).sum⟩ := by
  intro count number
  obtain ⟨hn, nodes, last, hcomposed, hroot, hsource⟩ := Matcher.ofPattern_ok h
  obtain ⟨hslots, hlast⟩ := hcomposed.slots_eq
  have hslot : ∀ slot ∈ m.slots, number slot.1 = slot.2 := by
    intro slot hs
    rw [hslots] at hs
    obtain ⟨i, hi, rfl⟩ := List.mem_mapIdx.mp hs
    have hidx : p.names.idxOf p.names[i] = i := hn.idxOf_getElem i hi
    rw [Nat.zero_add]
    exact congrArg (groupNumber count p.names) hidx
  obtain ⟨body, hbody, hnodes⟩ := hcomposed.nodes_eq hn
  refine ⟨hcomposed.names, ?_, body, ?_, ?_, ?_⟩
  · rw [Matcher.indices, hslots]
    refine List.ext_getElem (by simp [Pattern.names]) fun i hi hi' => ?_
    simp only [List.getElem_map, List.getElem_mapIdx, List.getElem_range, Nat.zero_add]
    rfl
  · intro name hname
    rw [Pattern.names, ← hcomposed.names] at hname
    obtain ⟨slot, hs, rfl⟩ := List.mem_map.mp hname
    exact hslot slot hs ▸ hbody slot hs
  · rw [hroot, hnodes number hslot]
  · rw [hsource, hlast, Nat.zero_add]
    rfl

/-- The groups of a condition move the group of the parameter behind it. Brackets in sets and
comments are no groups. -/
theorem Matcher.ofPattern_encloses_groups : ∃ p m,
    parse none "/a(/<x>)-<y>" = .ok p ∧
    Matcher.ofPattern p
      (.mapping [(.str "x", .str "(b|(c))d[)](?#\x7b)\\N\x7bCOLON\x7d"),
        (.str "y", .str "(.)\\1")]) = .ok m ∧
    m.order = ["x", "y"] ∧ m.indices = [1, 4] ∧
    Regex.ofChars m.source.toList = .ok ⟨m.root, 5⟩ := by
  have hp : parse none "/a(/<x>)-<y>" = .ok ⟨"/a(/<x>)-<y>", [.literal "/a",
      .optional ["x"] [.literal "/", .param "x"], .literal "-", .param "y"], none⟩ := by rfl
  have hmade : (Matcher.ofPattern ⟨"/a(/<x>)-<y>", [.literal "/a",
      .optional ["x"] [.literal "/", .param "x"], .literal "-", .param "y"], none⟩
      (.mapping [(.str "x", .str "(b|(c))d[)](?#\x7b)\\N\x7bCOLON\x7d"),
        (.str "y", .str "(.)\\1")])).toOption.isSome = true := by decide +kernel
  generalize hm : Matcher.ofPattern _ _ = result at hmade
  cases result with
  | error e => cases hmade
  | ok m =>
    obtain ⟨horder, hindices, body, -, -, hsource⟩ := Matcher.ofPattern_encloses hm
    refine ⟨_, m, hp, hm, horder, hindices.trans (by decide +kernel), hsource.trans ?_⟩
    exact congrArg (fun total => Except.ok (Expression.mk m.root total)) (by decide +kernel)

end PathRouting.Pattern
