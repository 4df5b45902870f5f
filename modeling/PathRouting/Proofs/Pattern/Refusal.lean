import PathRouting.Proofs.Pattern.Compilation
import PathRouting.Proofs.Regex.Limits

/-!
# Why a tree is refused

Expressions of a user's own aside, compiling fails for two reasons: a name occurs twice, or a
condition lists no value. The expression that is made for the tree is no reason. With such
expressions there can be mistakes, and one of them alone can be beyond what can be read at all;
the expression that is made for the tree is not, unless one of them is.
-/
namespace PathRouting.Pattern

open Regex

/-- Conditions that are no expressions and that some value meets. -/
inductive Listing : Value → Prop where
  | absent : Listing .null
  | list {xs : List Value} : xs ≠ [] → Listing (.list xs)
  | tuple {xs : List Value} : xs ≠ [] → Listing (.tuple xs)
  | set {xs : List Value} : xs ≠ [] → Listing (.set xs)
  | frozenSet {xs : List Value} : xs ≠ [] → Listing (.frozenSet xs)

theorem listing_iff {v : Value} :
    Listing v ↔ v = .null ∨ ∃ texts, listedValues? v = some texts ∧ texts ≠ [] := by
  have hsorted : ∀ xs : List Value, (xs.map Value.text).mergeSort (fun a b => decide (a ≤ b)) ≠ [] ↔
      xs ≠ [] := by
    intro xs
    rw [ne_eq, ← List.length_eq_zero_iff, List.length_mergeSort, List.length_map,
      List.length_eq_zero_iff]
  constructor
  · intro h
    cases h with
    | absent => exact .inl rfl
    | list h => exact .inr ⟨_, rfl, by simpa using h⟩
    | tuple h => exact .inr ⟨_, rfl, by simpa using h⟩
    | set h => exact .inr ⟨_, rfl, (hsorted _).mpr h⟩
    | frozenSet h => exact .inr ⟨_, rfl, (hsorted _).mpr h⟩
  · rintro (rfl | ⟨texts, hl, hne⟩)
    · exact .absent
    · unfold listedValues? at hl
      split at hl
      · obtain rfl := Option.some.inj hl
        exact .list (by simpa using hne)
      · obtain rfl := Option.some.inj hl
        exact .tuple (by simpa using hne)
      · obtain rfl := Option.some.inj hl
        exact .set ((hsorted _).mp hne)
      · obtain rfl := Option.some.inj hl
        exact .frozenSet ((hsorted _).mp hne)
      · cases hl

/-- Why a condition that is no expression has no source. -/
inductive Unlisted (name : String) (v : Value) : Failure → Prop where
  | unsupported : listedValues? v = none →
      Unlisted name v (.pattern (.unsupportedCondition name v.typeName))
  | empty : listedValues? v = some [] → Unlisted name v (.pattern (.emptyCondition name))

theorem conditionSource_cases [CharacterNames] {v : Value} (hs : ∀ source, v ≠ .str source)
    (name : String) : (∃ inner, conditionSource name v = .ok inner ∧ Listing v) ∨
      ∃ e, conditionSource name v = .error e ∧ Unlisted name v e ∧ ¬Listing v := by
  unfold conditionSource
  split
  · exact .inl ⟨_, rfl, .absent⟩
  · exact absurd rfl (hs _)
  · rename_i hnull _
    cases hl : listedValues? v with
    | none =>
      refine .inr ⟨_, rfl, .unsupported hl, fun h => ?_⟩
      rcases listing_iff.mp h with h | ⟨texts, h, -⟩
      · exact hnull h
      · cases hl.symm.trans h
    | some texts =>
      cases texts with
      | nil =>
        refine .inr ⟨_, rfl, .empty hl, fun h => ?_⟩
        rcases listing_iff.mp h with h | ⟨texts, h, hne⟩
        · exact hnull h
        · exact hne (Option.some.inj (hl.symm.trans h)).symm
      | cons text texts => exact .inl ⟨_, rfl, listing_iff.mpr (.inr ⟨_, hl, by simp⟩)⟩

section Pieces

variable {condition : String → Except Failure Value} {parts : List Segment} {e : Failure}

variable [CharacterNames]

theorem pieces_refused {groups : Nat} (h : pieces condition groups parts = .error e) :
    ∃ name ∈ Segment.namesOf parts, (condition name >>= conditionSource name) = .error e := by
  induction parts using Segment.sequence_induction generalizing groups with
  | nil => cases h
  | literal text rest ih =>
    rcases bind_eq_error.mp h with hx | ⟨x, -, h⟩
    · cases hx
    · rcases bind_eq_error.mp h with hy | ⟨y, -, h⟩
      · obtain ⟨name, hn, he⟩ := ih hy
        exact ⟨name, by simp [Segment.namesOf, hn], he⟩
      · cases h
  | param name rest ih =>
    rcases bind_eq_error.mp h with hx | ⟨x, -, h⟩
    · refine ⟨name, by simp [Segment.namesOf, Segment.names], bind_eq_error.mpr ?_⟩
      rcases bind_eq_error.mp hx with hv | ⟨value, hv, hx⟩
      · exact .inl hv
      · rcases bind_eq_error.mp hx with hi | ⟨inner, -, hx⟩
        · exact .inr ⟨value, hv, hi⟩
        · cases hx
    · rcases bind_eq_error.mp h with hy | ⟨y, -, h⟩
      · obtain ⟨other, hn, he⟩ := ih hy
        exact ⟨other, by simp [Segment.namesOf, hn], he⟩
      · cases h
  | optional dependsOn parts rest ihp ihr =>
    rcases bind_eq_error.mp h with hx | ⟨x, -, h⟩
    · rcases bind_eq_error.mp hx with hi | ⟨inner, -, hx⟩
      · obtain ⟨name, hn, he⟩ := ihp hi
        exact ⟨name, by simp [Segment.namesOf, Segment.names, hn], he⟩
      · cases hx
    · rcases bind_eq_error.mp h with hy | ⟨y, -, h⟩
      · obtain ⟨name, hn, he⟩ := ihr hy
        exact ⟨name, by simp [Segment.namesOf, hn], he⟩
      · cases h

theorem pieces_sources {groups : Nat} {piece : Piece}
    (h : pieces condition groups parts = .ok piece) : ∀ name ∈ Segment.namesOf parts,
      ∃ value inner, condition name = .ok value ∧ conditionSource name value = .ok inner := by
  induction parts using Segment.sequence_induction generalizing groups piece with
  | nil => simp [Segment.namesOf]
  | literal text rest ih =>
    obtain ⟨y, hy, -⟩ := pieces_literal h
    intro name hn
    exact ih hy name (by simpa [Segment.namesOf, Segment.names] using hn)
  | param name rest ih =>
    obtain ⟨value, inner, y, hv, hi, hy, -⟩ := pieces_param h
    intro other hn
    rcases List.mem_append.mp hn with hn | hn
    · obtain rfl : other = name := by simpa [Segment.names] using hn
      exact ⟨value, inner, hv, hi⟩
    · exact ih hy other hn
  | optional dependsOn parts rest ihp ihr =>
    obtain ⟨x, y, hx, hy, -⟩ := pieces_optional h
    intro name hn
    rcases List.mem_append.mp hn with hn | hn
    · exact ihp hx name hn
    · exact ihr hy name hn

/-- The expression that is made for a tree is within what can be read, whatever the conditions. -/
theorem pieces_not_beyond {piece : Piece} (h : pieces condition 0 parts = .ok piece)
    {error : Regex.Error} (he : ofChars ('^' :: (piece.source ++ ['$'])) = .error error) :
    ¬error.Beyond := by
  refine ofChars_not_beyond rfl ?_ he
  intro hu
  -- without a mistake every condition is read as it is read by itself, up to its closing bracket
  obtain ⟨a, nodes, ha, -, -, -, hflags, -⟩ :=
    whole_composed h (.inl True.intro) (fun _ => hu) rfl
  exact ⟨a, ha, hflags⟩

end Pieces

variable [CharacterNames]

/-- A condition that is an expression beyond what can be read. -/
inductive Exceeds (v : Value) : Failure → Prop where
  | intro {source : String} {error : Regex.Error} : v = .str source →
      ofChars source.toList = .error error → error.Beyond → Exceeds v (.regex error)

theorem conditionSource_error {name : String} {v : Value} {e : Failure}
    (h : conditionSource name v = .error e) : (∃ cause, e = .pattern cause) ∨ Exceeds v e := by
  unfold conditionSource at h
  split at h
  · cases h
  · split at h
    · cases h
    · rename_i hr
      obtain rfl := Except.error.inj h
      exact .inr (.intro rfl hr .repetitionTooLarge)
    · rename_i hr
      obtain rfl := Except.error.inj h
      exact .inr (.intro rfl hr .alphabetsClash)
    · exact .inl ⟨_, (Except.error.inj h).symm⟩
  · split at h
    · exact .inl ⟨_, (Except.error.inj h).symm⟩
    · exact .inl ⟨_, (Except.error.inj h).symm⟩
    · cases h

theorem Matcher.ofPattern_error {p : Pattern} {conditions : Value} {e : Failure}
    (h : Matcher.ofPattern p conditions = .error e) : (∃ cause, e = .pattern cause) ∨
      ∃ name ∈ p.names, (conditionOf conditions name >>= conditionSource name) = .error e := by
  unfold Matcher.ofPattern at h
  dsimp only at h
  split at h
  · exact .inl ⟨_, (Except.error.inj h).symm⟩
  · rcases bind_eq_error.mp h with hp | ⟨piece, hp, h⟩
    · exact .inr (pieces_refused hp)
    · split at h
      · cases h
      · rename_i he
        exact absurd .repetitionTooLarge (pieces_not_beyond hp he)
      · rename_i he
        exact absurd .alphabetsClash (pieces_not_beyond hp he)
      · exact .inl ⟨_, (Except.error.inj h).symm⟩

/-- A tree whose names are distinct and whose parameters all have sources is compiled, if no
expression of a user's own is among them; any other tree is refused for one of the two. -/
theorem Matcher.ofPattern_cases {p : Pattern} {conditions : Value}
    (hline : ∀ name ∈ p.names, ∀ source,
      conditionOf conditions name = .ok (.str source) → source = ".*") :
    (∃ m, Matcher.ofPattern p conditions = .ok m ∧ p.names.Nodup ∧ ∀ name ∈ p.names,
      ∃ inner, (conditionOf conditions name >>= conditionSource name) = .ok inner) ∨
    (¬p.names.Nodup ∧ Matcher.ofPattern p conditions =
      .error (.pattern (.duplicateNames (repeatedNames p.names) p.file))) ∨
    ∃ name ∈ p.names, ∃ e, (conditionOf conditions name >>= conditionSource name) = .error e ∧
      Matcher.ofPattern p conditions = .error e := by
  by_cases hn : p.names.Nodup
  · have hrepeated : (repeatedNames p.names).isEmpty = true := by
      rw [(repeatedNames_eq_nil_iff p.names).mpr hn]
      rfl
    cases hp : pieces (conditionOf conditions) 0 p.parts with
    | error e =>
      obtain ⟨name, hname, he⟩ := pieces_refused hp
      refine .inr (.inr ⟨name, hname, e, he, ?_⟩)
      simp only [Matcher.ofPattern, hrepeated, hp]
      rfl
    | ok piece =>
      obtain ⟨nodes, groups, -, hregex⟩ := pieces_accepted hp hline
      refine .inl ⟨⟨String.ofList ('^' :: (piece.source ++ ['$'])), wholeNode nodes,
        piece.slots⟩, ?_, hn, ?_⟩
      · simp only [Matcher.ofPattern, hrepeated, hp]
        simp only [Bool.not_true, Bool.false_eq_true, if_false, bind, Except.bind, hregex]
        rfl
      · intro name hname
        obtain ⟨value, inner, hv, hi⟩ := pieces_sources hp name hname
        exact ⟨inner, bind_eq_ok.mpr ⟨value, hv, hi⟩⟩
  · refine .inr (.inl ⟨hn, ?_⟩)
    have hrepeated : (repeatedNames p.names).isEmpty = false := by
      rw [Bool.eq_false_iff, ne_eq, List.isEmpty_iff, repeatedNames_eq_nil_iff]
      exact hn
    simp [Matcher.ofPattern, hrepeated]

end PathRouting.Pattern
