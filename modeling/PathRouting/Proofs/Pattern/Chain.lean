import Mathlib.Data.List.TakeWhile
import PathRouting.Pattern.Chain
import PathRouting.Proofs.Pattern.Filling
import PathRouting.Proofs.Pattern.Separation

/-!
# Chains are built and taken apart from the outside

A link is rendered if its parameter is supplied and the links around it are rendered. A path tells
by the first character behind a value whether the next link is there, so it decomposes in one way.
-/
namespace PathRouting

open Pattern Mapping

namespace Segment

theorem canonical_literal {text : String} {rest : List Segment}
    (ht : isLiteralRun text.toList = true) (hrest : Canonical rest)
    (hapart : startsLiterally rest = false) : Canonical (.literal text :: rest) := by
  obtain ⟨hne, ho, hc, hp⟩ := isLiteralRun_iff.mp ht
  exact .literal hne ho hc hp (startsLiterally_eq_false_iff.mp hapart) hrest

end Segment

namespace Chain

variable {c : Chain} {links : List Link}

/-! ## The tree -/

theorem namesOf_groups (links : List Link) :
    Segment.namesOf (groups links) = links.map Link.name := by
  induction links with
  | nil => rfl
  | cons link links ih => simp [groups, Segment.namesOf, Segment.names, ih]

theorem names_pattern (c : Chain) : c.pattern.names = c.names := by
  rw [Pattern.names, pattern, parts, Segment.namesOf_append, namesOf_groups]
  split_ifs <;> rfl

theorem renderAll_groups (links : List Link) :
    Segment.renderAll (groups links) = (write links).toList := by
  induction links with
  | nil => rfl
  | cons link links ih =>
    simp [groups, write, Segment.renderAll, Segment.render, ih, groupOpen, groupClose,
      placeholderOpen, placeholderClose]

theorem renderAll_parts (c : Chain) : Segment.renderAll c.parts = c.source.toList := by
  rw [parts, Segment.renderAll_append, renderAll_groups, source, String.toList_append]
  split_ifs with h
  · rw [String.isEmpty_iff.mp h]
    rfl
  · rw [Segment.renderAll, Segment.renderAll, Segment.render, List.append_nil]

theorem startsLiterally_groups (links : List Link) :
    Segment.startsLiterally (groups links) = false := by
  cases links <;> rfl

theorem canonical_groups (ht : ∀ link ∈ links, isLiteralRun link.text.toList = true)
    (hn : ∀ link ∈ links, isName link.name.toList = true) : Segment.Canonical (groups links) := by
  induction links with
  | nil => exact .nil
  | cons link links ih =>
    have hrest := ih (fun other hm => ht other (List.mem_cons_of_mem _ hm))
      fun other hm => hn other (List.mem_cons_of_mem _ hm)
    have hinner : Segment.Canonical (.literal link.text :: .param link.name :: groups links) :=
      Segment.canonical_literal (ht link (List.mem_cons_self ..))
        (.param (hn link (List.mem_cons_self ..)) hrest) rfl
    refine .optional ?_ hinner .nil
    cases links <;> rfl

theorem parse_source (h : c.Separated) : Pattern.parse none c.source = .ok c.pattern := by
  refine parse_of_canonical none (renderAll_parts c) ?_
  have hgroups := canonical_groups h.texts h.names
  rw [parts]
  split_ifs with hempty
  · exact hgroups
  · have hhead := h.head.resolve_left fun he => hempty (String.isEmpty_iff.mpr he)
    exact Segment.canonical_literal hhead hgroups (startsLiterally_groups _)

/-! ## Decompositions -/

variable {allowed : String → Allowed} {tail : List Segment} {s : List Char} {found : Captures}

/-- A link is absent, or there is its text with a value and what the links inside it take. -/
theorem decomposes_groups_cons {link : Link}
    (h : Decomposes allowed (groups (link :: links) ++ tail) s found) :
    Decomposes allowed tail s found ∨ ∃ run rest more, s = link.text.toList ++ (run ++ rest) ∧
      (allowed link.name).holds run = true ∧ found = (link.name, String.ofList run) :: more ∧
        Decomposes allowed (groups links ++ tail) rest more := by
  rw [groups, List.singleton_append] at h
  cases h with
  | absent _ _ h => exact .inl h
  | @present _ _ _ _ last _ behind hinner hlast =>
    cases hinner with
    | literal _ hparam =>
      cases hparam with
      | @param _ run _ inside values hholds hgroups =>
        refine .inr ⟨run, inside ++ last, values ++ behind, ?_, hholds, rfl, hgroups.append hlast⟩
        rw [List.append_assoc, List.append_assoc]

/-- Links decompose in one way before a tail that does, if the tail begins with a question mark
wherever it takes something. -/
theorem determinate_groups (ht : Determinate allowed tail)
    (hmark : ∀ {s found}, Decomposes allowed tail s found → ∀ first ∈ s.head?, first = '?')
    (hall : ∀ link ∈ links, allowed link.name = .nameRun)
    (hapart : ∀ link ∈ links, ∃ first ∈ link.text.toList.head?,
      isNameChar first = false ∧ first ≠ '?') : Determinate allowed (groups links ++ tail) := by
  induction links with
  | nil => exact ht
  | cons link links ih =>
    obtain ⟨first, hhead, hfirst, hne⟩ := hapart link (List.mem_cons_self ..)
    obtain ⟨after, htext⟩ := List.head?_eq_some_iff.mp hhead
    have hinner := ih (fun other hm => hall other (List.mem_cons_of_mem _ hm))
      fun other hm => hapart other (List.mem_cons_of_mem _ hm)
    have hrun : ∀ {run : List Char}, (allowed link.name).holds run = true →
        run.all isNameChar = true := by
      intro run h
      rw [hall link (List.mem_cons_self ..), Allowed.holds, Bool.and_eq_true] at h
      exact h.2
    have habsent : ∀ {s : List Char} {found : Captures},
        ¬Decomposes allowed tail (link.text.toList ++ s) found := by
      intro s found h
      exact hne (hmark h first (by simp [htext]))
    constructor
    case apart =>
      intro s found h
      rcases decomposes_groups_cons h with h | ⟨run, rest, more, rfl, -⟩
      · exact ht.apart h
      · rw [htext, List.cons_append, List.takeWhile_cons_of_neg (by simp [hfirst])]
    case unique =>
      intro s found found' h h'
      rcases decomposes_groups_cons h with h | ⟨run, rest, more, rfl, hholds, rfl, hrest⟩
      · rcases decomposes_groups_cons h' with h' | ⟨run', rest', more', rfl, -⟩
        · exact ht.unique h h'
        · exact absurd h habsent
      · rcases decomposes_groups_cons h' with h' | ⟨run', rest', more', he, hholds', rfl, hrest'⟩
        · exact absurd h' habsent
        · -- behind the value no name goes on, so both values end at the same place
          have he := List.append_cancel_left he
          obtain rfl := run_unique (hrun hholds) (hrun hholds') he
            ((hinner.apart hrest).trans (hinner.apart hrest').symm)
          obtain rfl := List.append_cancel_left he
          rw [hinner.unique hrest hrest']

/-! ## Built paths -/

variable {defaults : Mapping String} {params : Mapping Value}

def reached (defaults : Mapping String) (params : Mapping Value) (c : Chain) : List String :=
  c.names.takeWhile (isSupplied defaults params)

def shown (defaults : Mapping String) (params : Mapping Value) (c : Chain) : Captures :=
  (c.reached defaults params).map fun name => (name, emitted defaults params name)

theorem names_shown (defaults : Mapping String) (params : Mapping Value) (c : Chain) :
    (c.shown defaults params).map Prod.fst = c.reached defaults params := by
  rw [shown, List.map_map]
  exact List.map_id _

theorem lookup_shown (hnames : c.names.Nodup) (name : String) :
    (c.shown defaults params).lookup name =
      if name ∈ c.reached defaults params then some (emitted defaults params name) else none := by
  have hnodup : ((c.shown defaults params).map Prod.fst).Nodup := by
    rw [names_shown]
    exact (List.takeWhile_sublist _).nodup hnames
  split_ifs with h
  · exact lookup_of_mem hnodup (List.mem_map.mpr ⟨name, h, rfl⟩)
  · refine lookup_of_notMem ?_
    rwa [names_shown]

theorem mem_reached_iff {outer inner : List String} {name : String} (hnames : c.names.Nodup)
    (hsplit : c.names = outer ++ name :: inner) : name ∈ c.reached defaults params ↔
      (∀ other ∈ outer, isSupplied defaults params other = true) ∧
        isSupplied defaults params name = true := by
  rw [hsplit, List.nodup_append] at hnames
  have hnew : name ∉ outer := fun hm =>
    hnames.2.2 name hm name (List.mem_cons_self ..) rfl
  rw [reached, hsplit]
  constructor
  · intro h
    have hall : ∀ other ∈ outer, isSupplied defaults params other = true := by
      by_contra hsome
      rw [List.takeWhile_append, if_neg] at h
      · exact hnew ((List.takeWhile_sublist _).subset h)
      · intro hlength
        refine hsome fun other hm => ?_
        rw [← (List.takeWhile_prefix _).eq_of_length hlength] at hm
        exact List.mem_takeWhile_imp hm
    exact ⟨hall, List.mem_takeWhile_imp h⟩
  · rintro ⟨hall, hname⟩
    rw [List.takeWhile_append_of_pos hall, List.takeWhile_cons_of_pos hname]
    exact List.mem_append_right _ (List.mem_cons_self ..)

theorem decomposes_built_groups
    (hvalue : ∀ link ∈ links, isSupplied defaults params link.name = true →
      (allowed link.name).holds (emitted defaults params link.name).toList = true) :
    Decomposes allowed (groups links) (buildParts defaults params (groups links)).toList
      (((links.map Link.name).takeWhile (isSupplied defaults params)).map fun name =>
        (name, emitted defaults params name)) := by
  induction links with
  | nil => exact .nil
  | cons link links ih =>
    have hrest := ih fun other hm => hvalue other (List.mem_cons_of_mem _ hm)
    rw [groups, buildParts, buildPart, List.any_cons, List.any_nil, Bool.or_false, List.map_cons]
    by_cases hs : isSupplied defaults params link.name = true
    · have hparam : Decomposes allowed (.param link.name :: groups links) _ _ :=
        .param (hvalue link (List.mem_cons_self ..) hs) hrest
      rw [String.ofList_toList] at hparam
      have hliteral : buildPart defaults params (.literal link.text) = link.text := by
        rw [buildPart]
      have h := Decomposes.present [link.name] (.literal link.text hparam) .nil
      rw [if_pos hs, List.takeWhile_cons_of_pos hs]
      simp only [buildParts, hliteral, buildPart_param]
      simpa using h
    · rw [if_neg hs, List.takeWhile_cons_of_neg hs]
      exact .absent _ _ .nil

theorem parts_eq_append (allowed : String → Allowed) (defaults : Mapping String)
    (params : Mapping Value) (c : Chain) : ∃ front, c.parts = front ++ groups c.links ∧
      Segment.isSeparated false front = true ∧ Segment.namesOf front = [] ∧
        Decomposes allowed front (buildParts defaults params front).toList [] := by
  refine ⟨_, rfl, ?_⟩
  split_ifs
  · exact ⟨rfl, rfl, .nil⟩
  · have h : Decomposes allowed [.literal c.head] _ _ := .literal c.head .nil
    refine ⟨rfl, rfl, ?_⟩
    simpa [buildParts, buildPart] using h

/-- A path that is built from a chain, with a tail behind it, gives the values of the links that
were rendered and what the tail takes. -/
theorem decompose_built (hs : c.Separated) (ht : Determinate allowed tail)
    (hmark : ∀ {s found}, Decomposes allowed tail s found → ∀ first ∈ s.head?, first = '?')
    (hall : ∀ name ∈ c.names, allowed name = .nameRun)
    (hvalue : ∀ name ∈ c.names, isSupplied defaults params name = true →
      Allowed.nameRun.holds (emitted defaults params name).toList = true)
    {last : String} (hlast : Decomposes allowed tail last.toList found) :
    decompose? allowed (c.parts ++ tail) (buildParts defaults params c.parts ++ last) =
      some (c.shown defaults params ++ found) := by
  obtain ⟨front, hparts, hseparated, hnames, hfront⟩ := c.parts_eq_append allowed defaults params
  have hlinks : ∀ link ∈ c.links, allowed link.name = .nameRun :=
    fun link hm => hall _ (List.mem_map_of_mem hm)
  have hfilled : ∀ link ∈ c.links, isSupplied defaults params link.name = true →
      (allowed link.name).holds (emitted defaults params link.name).toList = true := by
    intro link hm hsupplied
    rw [hlinks link hm]
    exact hvalue _ (List.mem_map_of_mem hm) hsupplied
  have hgroups := decomposes_built_groups hfilled
  have hpath : (buildParts defaults params c.parts ++ last).toList =
      (buildParts defaults params front).toList ++
        ((buildParts defaults params (groups c.links)).toList ++ last.toList) := by
    rw [hparts, buildParts_append, String.toList_append, String.toList_append, List.append_assoc]
  have htree : c.parts ++ tail = front ++ (groups c.links ++ tail) := by
    rw [hparts, List.append_assoc]
  rw [htree]
  refine (determinate_groups ht hmark hlinks hs.apart).decompose_eq_some hseparated ?_ ?_
  · rw [hnames]
    intro name hname
    cases hname
  · rw [hpath]
    exact hfront.append (hgroups.append hlast)

end Chain

end PathRouting
