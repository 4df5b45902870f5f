import PathRouting.Pattern.Decomposition
import PathRouting.Proofs.Text.Splitting

/-!
# What a decomposition is

The search for a decomposition finds one whenever there is one. A decomposition itself is told
by rules, one for every kind of part, without any order of preference.
-/
namespace PathRouting

namespace Pattern

/-- A text is made of pieces along a tree, which give values to parameters. -/
inductive Decomposes (allowed : String → Allowed) :
    List Segment → List Char → Captures → Prop where
  | nil : Decomposes allowed [] [] []
  | literal (text : String) {rest : List Segment} {s : List Char} {found : Captures} :
      Decomposes allowed rest s found →
      Decomposes allowed (.literal text :: rest) (text.toList ++ s) found
  | param {name : String} {taken : List Char} {rest : List Segment} {s : List Char}
      {found : Captures} : (allowed name).holds taken = true → Decomposes allowed rest s found →
      Decomposes allowed (.param name :: rest) (taken ++ s) ((name, String.ofList taken) :: found)
  | present (dependsOn : List String) {parts rest : List Segment} {taken s : List Char}
      {found more : Captures} : Decomposes allowed parts taken found →
      Decomposes allowed rest s more →
      Decomposes allowed (.optional dependsOn parts :: rest) (taken ++ s) (found ++ more)
  | absent (dependsOn : List String) (parts : List Segment) {rest : List Segment} {s : List Char}
      {found : Captures} : Decomposes allowed rest s found →
      Decomposes allowed (.optional dependsOn parts :: rest) s found

theorem Decomposes.append {allowed : String → Allowed} {xs ys : List Segment} {s s' : List Char}
    {found found' : Captures} (h : Decomposes allowed xs s found)
    (h' : Decomposes allowed ys s' found') :
    Decomposes allowed (xs ++ ys) (s ++ s') (found ++ found') := by
  induction xs generalizing s found with
  | nil =>
    cases h
    exact h'
  | cons x xs ih =>
    cases h with
    | literal text hrest =>
      rw [List.append_assoc]
      exact .literal text (ih hrest)
    | param hholds hrest =>
      rw [List.append_assoc]
      exact .param hholds (ih hrest)
    | present dependsOn hparts hrest =>
      rw [List.append_assoc, List.append_assoc]
      exact .present dependsOn hparts (ih hrest)
    | absent dependsOn parts hrest => exact .absent dependsOn parts (ih hrest)

theorem Allowed.mem_splits_iff {p : Char → Bool} {s taken left : List Char} :
    (taken, left) ∈ splits p s ↔ s = taken ++ left ∧ taken.all p = true := by
  induction s generalizing taken with
  | nil =>
    simp only [splits, List.mem_singleton, Prod.mk.injEq, List.nil_eq_append_iff]
    constructor
    · rintro ⟨rfl, rfl⟩
      exact ⟨⟨rfl, rfl⟩, rfl⟩
    · rintro ⟨h, -⟩
      exact h
  | cons x s ih =>
    rw [splits]
    constructor
    · intro h
      by_cases hp : p x = true
      · rw [if_pos hp, List.mem_append, List.mem_map] at h
        rcases h with ⟨⟨taken', left'⟩, hm, he⟩ | h
        · obtain ⟨rfl, rfl⟩ := Prod.mk.inj he
          obtain ⟨rfl, ha⟩ := ih.mp hm
          exact ⟨rfl, by simp [hp, ha]⟩
        · obtain ⟨rfl, rfl⟩ := Prod.mk.inj (List.mem_singleton.mp h)
          exact ⟨rfl, rfl⟩
      · rw [if_neg hp] at h
        obtain ⟨rfl, rfl⟩ := Prod.mk.inj (List.mem_singleton.mp h)
        exact ⟨rfl, rfl⟩
    · rintro ⟨he, ha⟩
      cases taken with
      | nil =>
        obtain rfl : x :: s = left := he
        split <;> simp
      | cons y taken =>
        obtain ⟨rfl, rfl⟩ := List.cons.inj he
        rw [List.all_cons, Bool.and_eq_true] at ha
        rw [if_pos ha.1]
        exact List.mem_append_left _ (List.mem_map.mpr ⟨(taken, left), ih.mpr ⟨rfl, ha.2⟩, rfl⟩)

theorem Allowed.mem_takes_iff {a : Allowed} {s taken left : List Char} :
    (taken, left) ∈ a.takes s ↔ s = taken ++ left ∧ a.holds taken = true := by
  cases a with
  | nameRun =>
    simp only [takes, List.mem_filter, mem_splits_iff, holds, Bool.and_eq_true]
    constructor
    · rintro ⟨⟨he, ha⟩, hn⟩
      exact ⟨he, hn, ha⟩
    · rintro ⟨he, hn, ha⟩
      exact ⟨⟨he, ha⟩, hn⟩
  | line =>
    have hall : taken.all (· != '\n') = !taken.contains '\n' := by
      rw [Bool.eq_iff_iff]
      simp only [List.all_eq_true, bne_iff_ne, Bool.not_eq_true', List.contains_eq_mem,
        decide_eq_false_iff_not]
      constructor
      · intro h hm
        exact h _ hm rfl
      · intro h x hx he
        exact h (he ▸ hx)
    simp only [takes, mem_splits_iff, holds, hall]
  | oneOf texts =>
    simp only [takes, List.mem_filterMap, Option.map_eq_some_iff, Text.dropStart_eq_some_iff,
      Prod.mk.injEq, holds, List.contains_iff_mem]
    constructor
    · rintro ⟨text, hm, left', hs, rfl, rfl⟩
      exact ⟨hs, by simpa using hm⟩
    · rintro ⟨hs, hm⟩
      exact ⟨_, hm, left, by simpa using hs, by simp, rfl⟩

theorem mem_waysOf_cons {allowed : String → Allowed} {part : Segment} {rest : List Segment}
    {s left : List Char} {found : Captures} : (found, left) ∈ waysOf allowed (part :: rest) s ↔
      ∃ first middle more, (first, middle) ∈ ways allowed part s ∧
        (more, left) ∈ waysOf allowed rest middle ∧ found = first ++ more := by
  simp only [waysOf, List.mem_flatMap, List.mem_map, Prod.exists, Prod.mk.injEq]
  constructor
  · rintro ⟨first, middle, hp, more, left', hr, rfl, rfl⟩
    exact ⟨first, middle, more, hp, hr, rfl⟩
  · rintro ⟨first, middle, more, hp, hr, rfl⟩
    exact ⟨first, middle, hp, more, left, hr, rfl, rfl⟩

theorem waysOf_append (allowed : String → Allowed) (parts more : List Segment) (s : List Char) :
    waysOf allowed (parts ++ more) s = (waysOf allowed parts s).flatMap fun way =>
      (waysOf allowed more way.2).map fun next => (way.1 ++ next.1, next.2) := by
  induction parts generalizing s with
  | nil => simp [waysOf]
  | cons part parts ih =>
    rw [List.cons_append, waysOf, waysOf, List.flatMap_assoc]
    congr 1
    funext way
    obtain ⟨found, left⟩ := way
    dsimp only
    rw [ih, List.map_flatMap, List.flatMap_map]
    congr 1
    funext next
    simp [List.map_map, Function.comp_def]

theorem mem_waysOf_iff {allowed : String → Allowed} {parts : List Segment} {s left : List Char}
    {found : Captures} : (found, left) ∈ waysOf allowed parts s ↔
      ∃ taken, s = taken ++ left ∧ Decomposes allowed parts taken found := by
  induction parts using Segment.sequence_induction generalizing s left found with
  | nil =>
    simp only [waysOf, List.mem_singleton, Prod.mk.injEq]
    constructor
    · rintro ⟨rfl, rfl⟩
      exact ⟨[], rfl, .nil⟩
    · rintro ⟨taken, rfl, h⟩
      cases h
      exact ⟨rfl, rfl⟩
  | literal text rest ih =>
    rw [mem_waysOf_cons]
    constructor
    · rintro ⟨first, middle, more, hp, hr, rfl⟩
      obtain ⟨left', hd, he⟩ := List.mem_map.mp hp
      obtain ⟨rfl, rfl⟩ := Prod.mk.inj he
      obtain rfl := Text.dropStart_eq_some_iff.mp (Option.mem_toList.mp hd)
      obtain ⟨taken, rfl, h⟩ := ih.mp hr
      exact ⟨text.toList ++ taken, by simp, .literal text h⟩
    · rintro ⟨taken, rfl, h⟩
      cases h with
      | @literal _ _ s _ h =>
        refine ⟨[], s ++ left, found, ?_, ih.mpr ⟨s, rfl, h⟩, rfl⟩
        refine List.mem_map.mpr ⟨s ++ left, ?_, rfl⟩
        exact Option.mem_toList.mpr (Text.dropStart_eq_some_iff.mpr (List.append_assoc _ _ _))
  | param name rest ih =>
    rw [mem_waysOf_cons]
    constructor
    · rintro ⟨first, middle, more, hp, hr, rfl⟩
      obtain ⟨⟨taken, left'⟩, ht, he⟩ := List.mem_map.mp hp
      obtain ⟨rfl, rfl⟩ := Prod.mk.inj he
      obtain ⟨rfl, hh⟩ := Allowed.mem_takes_iff.mp ht
      obtain ⟨taken', rfl, h⟩ := ih.mp hr
      exact ⟨taken ++ taken', by simp, .param hh h⟩
    · rintro ⟨taken, rfl, h⟩
      cases h with
      | @param _ taken _ s more hh h =>
        refine ⟨[(name, String.ofList taken)], s ++ left, more, ?_, ih.mpr ⟨s, rfl, h⟩, rfl⟩
        refine List.mem_map.mpr ⟨(taken, s ++ left), ?_, rfl⟩
        exact Allowed.mem_takes_iff.mpr ⟨List.append_assoc _ _ _, hh⟩
  | optional dependsOn parts rest ihp ihr =>
    rw [mem_waysOf_cons]
    constructor
    · rintro ⟨first, middle, more, hp, hr, rfl⟩
      obtain ⟨taken', hm, h'⟩ := ihr.mp hr
      rcases List.mem_append.mp hp with hp | hp
      · obtain ⟨taken, rfl, h⟩ := ihp.mp hp
        exact ⟨taken ++ taken', by simp [hm], .present dependsOn h h'⟩
      · obtain ⟨rfl, rfl⟩ := Prod.mk.inj (List.mem_singleton.mp hp)
        exact ⟨taken', hm, .absent dependsOn parts h'⟩
    · rintro ⟨taken, rfl, h⟩
      cases h with
      | @present _ _ _ taken s first more h h' =>
        refine ⟨first, s ++ left, more, ?_, ihr.mpr ⟨s, rfl, h'⟩, rfl⟩
        exact List.mem_append_left _ (ihp.mpr ⟨taken, List.append_assoc _ _ _, h⟩)
      | absent _ _ h =>
        exact ⟨[], taken ++ left, found, List.mem_append_right _ (List.mem_singleton.mpr rfl),
          ihr.mpr ⟨taken, rfl, h⟩, rfl⟩

theorem decompose_sound {allowed : String → Allowed} {parts : List Segment} {path : String}
    {found : Captures} (h : decompose? allowed parts path = some found) :
    Decomposes allowed parts path.toList found := by
  obtain ⟨⟨found', left⟩, hf, rfl⟩ := Option.map_eq_some_iff.mp h
  obtain rfl : left = [] := by simpa using List.find?_some hf
  obtain ⟨taken, hs, hd⟩ := mem_waysOf_iff.mp (List.mem_of_find?_eq_some hf)
  rw [List.append_nil] at hs
  exact hs ▸ hd

theorem decompose_eq_none_iff {allowed : String → Allowed} {parts : List Segment}
    {path : String} : decompose? allowed parts path = none ↔
      ∀ found, ¬Decomposes allowed parts path.toList found := by
  rw [decompose?, Option.map_eq_none_iff, List.find?_eq_none]
  constructor
  · intro h found hd
    exact h (found, []) (mem_waysOf_iff.mpr ⟨_, (List.append_nil _).symm, hd⟩) rfl
  · rintro h ⟨found, left⟩ hm he
    obtain rfl : left = [] := by simpa using he
    obtain ⟨taken, hs, hd⟩ := mem_waysOf_iff.mp hm
    rw [List.append_nil] at hs
    exact h found (hs ▸ hd)

end Pattern

end PathRouting
