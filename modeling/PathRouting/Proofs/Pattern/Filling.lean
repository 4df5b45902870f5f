import PathRouting.Pattern.Normalization
import PathRouting.Proofs.Pattern.Decomposing
import PathRouting.Proofs.Pattern.Inversion

/-!
# Well-filled paths

A builder decides at every optional group whether to render it. Where the parameters that it
renders all get text they allow, the path that is built decomposes along the tree: a group that
was rendered is present, and one that was not is absent.
-/
namespace PathRouting.Pattern

open Mapping

/-- The text that a parameter gets where it is rendered. -/
def emitted (defaults : Mapping String) (params : Mapping Value) (name : String) : String :=
  (givenText? params name).getD ((named? defaults name).getD "")

mutual

/-- Whether all parameters that are rendered in a part get text that they may have. -/
def isFilledPart (allowed : String → Allowed) (defaults : Mapping String)
    (params : Mapping Value) : Segment → Bool
  | .literal _ => true
  | .param name => (allowed name).holds (emitted defaults params name).toList
  | .optional dependsOn parts =>
    !dependsOn.any (isSupplied defaults params) || isFilled allowed defaults params parts

/-- Whether all parameters that are rendered in a sequence get text that they may have. -/
def isFilled (allowed : String → Allowed) (defaults : Mapping String)
    (params : Mapping Value) : List Segment → Bool
  | [] => true
  | part :: rest =>
    isFilledPart allowed defaults params part && isFilled allowed defaults params rest

end

variable {allowed : String → Allowed} {defaults : Mapping String} {params params' : Mapping Value}
  {parts : List Segment}

theorem buildPart_param (defaults : Mapping String) (params : Mapping Value) (name : String) :
    buildPart defaults params (.param name) = emitted defaults params name := by
  rw [buildPart, emitted]
  cases givenText? params name <;> rfl

theorem isFilled_append {xs ys : List Segment}
    (hx : isFilled allowed defaults params xs = true)
    (hy : isFilled allowed defaults params ys = true) :
    isFilled allowed defaults params (xs ++ ys) = true := by
  induction xs with
  | nil => exact hy
  | cons x xs ih =>
    rw [isFilled, Bool.and_eq_true] at hx
    rw [List.cons_append, isFilled, Bool.and_eq_true]
    exact ⟨hx.1, ih hx.2⟩

/-! ## What a builder looks at -/

theorem suppliedText?_congr {name : String} (h : named? params name = named? params' name) :
    suppliedText? defaults params name = suppliedText? defaults params' name := by
  rw [suppliedText?, suppliedText?, givenText?, givenText?, h]

theorem isSupplied_eq (defaults : Mapping String) (params : Mapping Value) (name : String) :
    isSupplied defaults params name = (suppliedText? defaults params name).isSome := by
  rw [isSupplied, suppliedText?]
  cases givenText? params name with
  | none => rfl
  | some text => cases h : named? defaults name != some text <;> simp [Option.filter, h]

theorem emitted_eq (defaults : Mapping String) (params : Mapping Value) (name : String) :
    emitted defaults params name =
      (suppliedText? defaults params name).getD ((named? defaults name).getD "") := by
  rw [emitted, suppliedText?]
  cases givenText? params name with
  | none => rfl
  | some text =>
    by_cases h : named? defaults name = some text
    · simp [Option.filter, h]
    · simp [Option.filter, bne_iff_ne.mpr h]

/-- Whether a group is rendered depends on what its direct parameters are supplied with. -/
theorem any_isSupplied_congr {dependsOn : List String}
    (hd : dependsOn = (parts.filterMap Segment.paramName?).eraseDups)
    (h : ∀ name ∈ Segment.namesOf parts,
      suppliedText? defaults params name = suppliedText? defaults params' name) :
    dependsOn.any (isSupplied defaults params) = dependsOn.any (isSupplied defaults params') := by
  rw [Bool.eq_iff_iff, List.any_eq_true, List.any_eq_true]
  refine exists_congr fun name => and_congr_right fun hm => ?_
  have hname := mem_namesOf (mem_paramNames.mp (hd ▸ hm))
  rw [isSupplied_eq, isSupplied_eq, h name hname]

theorem isFilled_congr (hc : Segment.Canonical parts)
    (h : ∀ name ∈ Segment.namesOf parts, named? params name = named? params' name) :
    isFilled allowed defaults params parts = isFilled allowed defaults params' parts := by
  induction hc with
  | nil => rfl
  | literal _ _ _ _ _ _ ih =>
    rw [isFilled, isFilled, isFilledPart, isFilledPart, ih h]
  | @param name rest _ _ ih =>
    have hname : suppliedText? defaults params name = suppliedText? defaults params' name :=
      suppliedText?_congr (h name (List.mem_append_left _ (List.mem_singleton_self _)))
    have hrest := ih fun other hm => h other (List.mem_append_right _ hm)
    rw [isFilled, isFilled, isFilledPart, isFilledPart, emitted_eq, emitted_eq, hname, hrest]
  | @optional dependsOn parts rest hd _ _ ihp ihr =>
    have hinner : ∀ name ∈ Segment.namesOf parts, named? params name = named? params' name :=
      fun other hm => h other (List.mem_append_left _ hm)
    have hrest := ihr fun other hm => h other (List.mem_append_right _ hm)
    have hany : dependsOn.any (isSupplied defaults params) =
        dependsOn.any (isSupplied defaults params') :=
      any_isSupplied_congr hd fun name hm => suppliedText?_congr (hinner name hm)
    rw [isFilled, isFilled, isFilledPart, isFilledPart, hany, ihp hinner, hrest]

theorem buildParts_of_supplied (hc : Segment.Canonical parts)
    (h : ∀ name ∈ Segment.namesOf parts,
      suppliedText? defaults params name = suppliedText? defaults params' name) :
    buildParts defaults params parts = buildParts defaults params' parts := by
  induction hc with
  | nil => rfl
  | literal _ _ _ _ _ _ ih => rw [buildParts, buildParts, buildPart, buildPart, ih h]
  | @param name rest _ _ ih =>
    have hname := h name (List.mem_append_left _ (List.mem_singleton_self _))
    have hrest := ih fun other hm => h other (List.mem_append_right _ hm)
    rw [buildParts, buildParts, buildPart_param, buildPart_param, emitted_eq, emitted_eq, hname,
      hrest]
  | @optional dependsOn parts rest hd _ _ ihp ihr =>
    have hinner : ∀ name ∈ Segment.namesOf parts,
        suppliedText? defaults params name = suppliedText? defaults params' name :=
      fun other hm => h other (List.mem_append_left _ hm)
    have hrest := ihr fun other hm => h other (List.mem_append_right _ hm)
    rw [buildParts, buildParts, buildPart, buildPart, any_isSupplied_congr hd hinner, ihp hinner,
      hrest]

theorem buildParts_of_named (hc : Segment.Canonical parts)
    (h : ∀ name ∈ Segment.namesOf parts, named? params name = named? params' name) :
    buildParts defaults params parts = buildParts defaults params' parts :=
  buildParts_of_supplied hc fun name hm => suppliedText?_congr (h name hm)

theorem decomposes_filled
    (h : isFilled allowed defaults params parts = true) :
    ∃ found, Decomposes allowed parts (buildParts defaults params parts).toList found := by
  induction parts using Segment.sequence_induction with
  | nil => exact ⟨[], .nil⟩
  | literal text rest ih =>
    rw [isFilled, Bool.and_eq_true] at h
    obtain ⟨found, hrest⟩ := ih h.2
    rw [buildParts, buildPart, String.toList_append]
    exact ⟨found, .literal text hrest⟩
  | param name rest ih =>
    rw [isFilled, isFilledPart, Bool.and_eq_true] at h
    obtain ⟨found, hrest⟩ := ih h.2
    rw [buildParts, buildPart_param, String.toList_append]
    exact ⟨_, .param h.1 hrest⟩
  | optional dependsOn parts rest ihp ihr =>
    rw [isFilled, isFilledPart, Bool.and_eq_true, Bool.or_eq_true, Bool.not_eq_true'] at h
    obtain ⟨more, hrest⟩ := ihr h.2
    rw [buildParts, buildPart, String.toList_append]
    by_cases hs : dependsOn.any (isSupplied defaults params) = true
    · have hfilled := h.1.resolve_left (by rw [hs]; exact Bool.noConfusion)
      obtain ⟨found, hparts⟩ := ihp hfilled
      rw [if_pos hs]
      exact ⟨found ++ more, .present dependsOn hparts hrest⟩
    · rw [if_neg hs]
      exact ⟨more, .absent dependsOn parts hrest⟩

end PathRouting.Pattern
