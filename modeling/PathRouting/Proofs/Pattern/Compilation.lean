import PathRouting.Proofs.Pattern.Composition

/-!
# Compiling a tree into a matcher

A matcher holds the expressions of its tree between the two ends of the path. Without
expressions of a user's own there is always a matcher.
-/
namespace PathRouting.Pattern

open Regex

theorem repeatedNames_eq_nil_iff (names : List String) :
    repeatedNames names = [] ↔ names.Nodup := by
  unfold repeatedNames
  rw [List.nodup_iff_count_le_one, ← List.length_eq_zero_iff, List.length_mergeSort,
    List.length_eq_zero_iff]
  constructor
  · intro h name
    by_contra hc
    have hm : name ∈ names.filter fun n => 1 < names.count n := by
      have hp : 0 < names.count name := by omega
      exact List.mem_filter.mpr ⟨List.count_pos_iff.mp hp, by simpa using hc⟩
    have he := List.mem_eraseDups.mpr hm
    rw [h] at he
    cases he
  · intro h
    have hf : (names.filter fun n => 1 < names.count n) = [] := by
      rw [List.filter_eq_nil_iff]
      intro name _
      simpa using h name
    rw [hf]
    rfl

def wholeNode (nodes : List Node) : Node :=
  .ofList (.anchor .lineStart :: (nodes ++ [.anchor .lineEnd]))

variable {condition : String → Except Failure Value} {parts : List Segment} {piece : Piece}

section

variable [CharacterNames]

/-- The source between the two anchors is read to its end, and no bracket is left open. -/
theorem whole_composed {own : Prop} (h : pieces condition 0 parts = .ok piece)
    (hown : own ∨ ∀ name ∈ Segment.namesOf parts, ∀ source,
      condition name = .ok (.str source) → source = ".*")
    {result : Except Regex.Failure Assembly} (hr : own → Assembly.Unmistaken result)
    (hread : Assembly.start.pushAll 0 (Token.ofChars ('^' :: (piece.source ++ ['$']))).1 =
      result) :
    ∃ c nodes, result = .ok c ∧ Composed condition 0 parts piece.slots nodes piece.groups ∧
      c.frames = [] ∧ c.level.node = wholeNode nodes ∧ c.flags = [] ∧ (own ∨ c.asked = []) ∧
      c.groups.length = piece.groups := by
  have htokens : (Token.ofChars ('^' :: (piece.source ++ ['$']))).1 =
      .plain '^' :: ((Token.ofChars piece.source).1 ++ [.plain '$']) := by
    rw [Token.ofChars_cons (by decide), Token.ofChars_append (pieces_whole h)]
    rfl
  have hstart := Assembly.pushAll_step (a := .start) (t := .plain '^') []
    ((Token.ofChars piece.source).1 ++ [.plain '$']) rfl rfl
  rw [htokens] at hread
  obtain ⟨b, nodes, hc, hx, hg, hb⟩ := pieces_composed h hown
    (a := Assembly.start.append (.anchor .lineStart)) rfl rfl
    (settled_cons (by decide) (by decide)) hr (hstart.symm.trans hread)
  have hx' : Assembly.Extends own (.anchor .lineStart :: (nodes ++ [.anchor .lineEnd])) .start
      (b.append (.anchor .lineEnd)) :=
    ((Assembly.Extends.appendAll own .start [.anchor .lineStart]).trans hx).trans
      (Assembly.Extends.appendAll own b [.anchor .lineEnd])
  have hend : b.pushAll 0 [.plain '$'] = .ok (b.append (.anchor .lineEnd)) := by
    have hl : readLexeme b.level.verbose (.plain '$') [] = .ok (.node (.anchor .lineEnd), []) := by
      rw [show b.level.verbose = false from hx.verbose]
      rfl
    exact Assembly.pushAll_step [] [] hl rfl
  exact ⟨b.append (.anchor .lineEnd), nodes, hb.symm.trans hend, hc, hx'.frames,
    hx'.node rfl, hx'.flags, hx'.asked, hg⟩

theorem Matcher.ofPattern_source {p : Pattern} {conditions : Value} {m : Matcher}
    (h : Matcher.ofPattern p conditions = .ok m) : p.names.Nodup ∧ ∃ piece e,
      pieces (conditionOf conditions) 0 p.parts = .ok piece ∧
      ofChars ('^' :: (piece.source ++ ['$'])) = .ok e ∧
      m = ⟨String.ofList ('^' :: (piece.source ++ ['$'])), e.root, piece.slots⟩ := by
  unfold Matcher.ofPattern at h
  dsimp only at h
  split at h
  · cases h
  · rename_i hn
    have hnodup : p.names.Nodup := by
      rw [← repeatedNames_eq_nil_iff]
      simpa using hn
    obtain ⟨piece, hp, h⟩ := bind_eq_ok.mp h
    split at h
    · rename_i e he
      exact ⟨hnodup, piece, e, hp, he, (Except.ok.inj h).symm⟩
    · cases h
    · cases h
    · cases h

/-- A matcher holds the expressions of the tree it was made from, and its source is read into
them. -/
theorem Matcher.ofPattern_ok {p : Pattern} {conditions : Value} {m : Matcher}
    (h : Matcher.ofPattern p conditions = .ok m) : p.names.Nodup ∧ ∃ nodes last,
      Composed (conditionOf conditions) 0 p.parts m.slots nodes last ∧
      m.root = wholeNode nodes ∧ ofChars m.source.toList = .ok ⟨m.root, last⟩ := by
  obtain ⟨hnodup, piece, e, hp, he, rfl⟩ := Matcher.ofPattern_source h
  obtain ⟨-, a, ha, -, hexpr⟩ := ofChars_ok he
  obtain ⟨c, nodes, hc, hcomposed, -, hnode, -, -, hg⟩ := whole_composed hp
    (.inl True.intro) (fun _ => Assembly.unmistaken_ok a) ha
  obtain rfl := Except.ok.inj hc
  refine ⟨hnodup, nodes, _, hcomposed, ?_, ?_⟩
  · rw [hexpr]
    exact hnode
  · dsimp only
    rw [String.toList_ofList, he, hexpr, hg]

end

/-! ## Trees that always compile -/

def Harmless (x : Node) : Prop := ∀ groups, x.lateError? groups false = none

theorem harmless_ofList {xs : List Node} (h : ∀ x ∈ xs, Harmless x) : Harmless (.ofList xs) := by
  intro groups
  induction xs with
  | nil => rfl
  | cons x xs ih =>
    have hx := h x (by simp) groups
    have ht := ih fun y hy => h y (by simp [hy])
    cases xs with
    | nil => exact hx
    | cons y ys =>
      have hs : (Node.ofList (x :: y :: ys)).lateError? groups false =
        (x.lateError? groups false).or ((Node.ofList (y :: ys)).lateError? groups false) := rfl
      rw [hs, hx, ht]
      rfl

theorem harmless_ofAlternatives {xs : List Node} (h : ∀ x ∈ xs, Harmless x) :
    Harmless (.ofAlternatives xs) := by
  intro groups
  induction xs with
  | nil => rfl
  | cons x xs ih =>
    have hx := h x (by simp) groups
    have ht := ih fun y hy => h y (by simp [hy])
    cases xs with
    | nil => exact hx
    | cons y ys =>
      have hs : (Node.ofAlternatives (x :: y :: ys)).lateError? groups false =
        (x.lateError? groups false).or
          ((Node.ofAlternatives (y :: ys)).lateError? groups false) := rfl
      rw [hs, hx, ht]
      rfl

theorem harmless_literals (text : String) : ∀ x ∈ literals text, Harmless x := by
  intro x hx
  obtain ⟨c, -, rfl⟩ := List.mem_map.mp hx
  exact fun groups => rfl

variable [CharacterNames]

theorem harmless_of_fills {groups last : Nat} {value : Value} {body : Node}
    (h : Fills groups value body last) (hs : ∀ source, value = .str source → source = ".*") :
    Harmless body := by
  cases h with
  | absent => exact fun groups => rfl
  | @expression source e body he hshift _ =>
    obtain rfl := hs source rfl
    have hline : ofChars ".*".toList = .ok ⟨.repetition .greedy 0 none .any, 0⟩ := by rfl
    obtain rfl := Except.ok.inj (he.symm.trans hline)
    cases hshift with
    | simple hsimple => cases hsimple
    | repetition _ _ _ hany =>
      cases hany
      exact fun groups => rfl
  | listed =>
    refine harmless_ofAlternatives ?_
    intro x hx
    obtain ⟨text, -, rfl⟩ := List.mem_map.mp hx
    exact harmless_ofList (harmless_literals text)

theorem harmless_of_composed {groups last : Nat} {slots : List (String × Nat)}
    {nodes : List Node} (h : Composed condition groups parts slots nodes last)
    (hs : ∀ name ∈ Segment.namesOf parts, ∀ source,
      condition name = .ok (.str source) → source = ".*") : ∀ x ∈ nodes, Harmless x := by
  induction h with
  | nil => simp
  | literal text _ ih =>
    intro x hx
    rcases List.mem_append.mp hx with hx | hx
    · exact harmless_literals text x hx
    · exact ih (fun name hn => hs name (by simp [Segment.namesOf, hn])) x hx
  | @param name value body _ _ _ _ _ _ hv hf _ ih =>
    intro x hx
    rcases List.mem_cons.mp hx with rfl | hx
    · have hb : Harmless body := harmless_of_fills hf fun source hsource =>
        hs name (by simp [Segment.namesOf, Segment.names]) source (hsource ▸ hv)
      exact hb
    · exact ih (fun name hn => hs name (by simp [Segment.namesOf, hn])) x hx
  | optional dependsOn _ _ ihp ihr =>
    intro x hx
    rcases List.mem_cons.mp hx with rfl | hx
    · have hp := harmless_ofList
        (ihp fun name hn => hs name (by simp [Segment.namesOf, Segment.names, hn]))
      exact hp
    · exact ihr (fun name hn => hs name (by simp [Segment.namesOf, hn])) x hx

theorem ofChars_of_harmless {source : List Char} {c : Assembly}
    (hw : (Token.ofChars source).2 = false)
    (hread : Assembly.start.pushAll 0 (Token.ofChars source).1 = .ok c) (hf : c.frames = [])
    (hflags : c.flags = []) (hasked : c.asked = []) (hroot : Harmless c.level.node) :
    Regex.ofChars source = .ok ⟨c.level.node, c.groups.length⟩ := by
  have hfinish : ∀ length, c.finish length = .ok ⟨c.level.node, c.groups.length⟩ := by
    intro length
    unfold Assembly.finish
    rw [hf]
    simp only [Assembly.alphabetsClash, hflags, hasked, List.find?_nil]
    rw [show List.contains [] Flag.template = false from rfl, hroot]
    rfl
  unfold Regex.ofChars
  simp only [hread, hw]
  exact hfinish _

/-- Every part of a tree has a source if every condition on one of its parameters has one. -/
theorem pieces_isOk (groups : Nat) (hs : ∀ name ∈ Segment.namesOf parts, ∃ value inner,
    condition name = .ok value ∧ conditionSource name value = .ok inner) :
    ∃ piece, pieces condition groups parts = .ok piece := by
  induction parts using Segment.sequence_induction generalizing groups with
  | nil => exact ⟨_, rfl⟩
  | literal text rest ih =>
    obtain ⟨y, hy⟩ := ih groups fun name hn => hs name (by simp [Segment.namesOf, hn])
    refine ⟨_, bind_eq_ok.mpr ⟨_, rfl, bind_eq_ok.mpr ⟨y, hy, rfl⟩⟩⟩
  | param name rest ih =>
    obtain ⟨value, inner, hv, hi⟩ := hs name (by simp [Segment.namesOf, Segment.names])
    obtain ⟨y, hy⟩ := ih (groups + 1 + inner.groups) fun name hn =>
      hs name (by simp [Segment.namesOf, hn])
    refine ⟨_, bind_eq_ok.mpr ⟨_, bind_eq_ok.mpr ⟨value, hv, bind_eq_ok.mpr ⟨inner, hi, rfl⟩⟩,
      bind_eq_ok.mpr ⟨y, hy, rfl⟩⟩⟩
  | optional dependsOn parts rest ihp ihr =>
    obtain ⟨x, hx⟩ := ihp groups fun name hn =>
      hs name (by simp [Segment.namesOf, Segment.names, hn])
    obtain ⟨y, hy⟩ := ihr x.groups fun name hn => hs name (by simp [Segment.namesOf, hn])
    refine ⟨_, bind_eq_ok.mpr ⟨_, bind_eq_ok.mpr ⟨x, hx, rfl⟩, bind_eq_ok.mpr ⟨y, hy, rfl⟩⟩⟩

/-- Without expressions of a user's own the source of a tree is accepted, whatever the texts in it
are. -/
theorem pieces_accepted (h : pieces condition 0 parts = .ok piece)
    (hline : ∀ name ∈ Segment.namesOf parts, ∀ source,
      condition name = .ok (.str source) → source = ".*") :
    ∃ nodes groups, Composed condition 0 parts piece.slots nodes piece.groups ∧
      ofChars ('^' :: (piece.source ++ ['$'])) = .ok ⟨wholeNode nodes, groups⟩ := by
  obtain ⟨c, nodes, hread, hcomposed, hf, hnode, hflags, hasked, -⟩ :=
    whole_composed h (Or.inr hline : False ∨ _) False.elim rfl
  have hroot : Harmless (wholeNode nodes) := by
    refine harmless_ofList ?_
    have hnodes := harmless_of_composed hcomposed hline
    intro x hx
    rcases List.mem_cons.mp hx with rfl | hx
    · exact fun groups => rfl
    · rcases List.mem_append.mp hx with hx | hx
      · exact hnodes x hx
      · obtain rfl := List.mem_singleton.mp hx
        exact fun groups => rfl
  have hwhole : (Token.ofChars ('^' :: (piece.source ++ ['$']))).2 = false := by
    rw [Token.ofChars_cons (by decide), Token.ofChars_append (pieces_whole h)]
    rfl
  have hregex := ofChars_of_harmless hwhole hread hf hflags (hasked.resolve_left id)
    (hnode ▸ hroot)
  rw [hnode] at hregex
  exact ⟨nodes, _, hcomposed, hregex⟩

/-- Without expressions of a user's own there is a matcher for every tree whose parameters have
different names. -/
theorem Matcher.ofPattern_isOk {p : Pattern} {conditions : Value} (hn : p.names.Nodup)
    (hs : ∀ name ∈ p.names, ∃ value inner, conditionOf conditions name = .ok value ∧
      conditionSource name value = .ok inner ∧ ∀ source, value = .str source → source = ".*") :
    ∃ m nodes last, Matcher.ofPattern p conditions = .ok m ∧
      Composed (conditionOf conditions) 0 p.parts m.slots nodes last ∧
      m.root = wholeNode nodes := by
  have hline : ∀ name ∈ p.names, ∀ source,
      conditionOf conditions name = .ok (.str source) → source = ".*" := by
    intro name hname source hsource
    obtain ⟨value, inner, hv, -, hl⟩ := hs name hname
    exact hl source (Except.ok.inj (hv.symm.trans hsource))
  have hsource : ∀ name ∈ p.names, ∃ value inner, conditionOf conditions name = .ok value ∧
      conditionSource name value = .ok inner := by
    intro name hname
    obtain ⟨value, inner, hv, hi, -⟩ := hs name hname
    exact ⟨value, inner, hv, hi⟩
  obtain ⟨piece, hp⟩ := pieces_isOk 0 hsource
  obtain ⟨nodes, groups, hcomposed, hregex⟩ := pieces_accepted hp hline
  refine ⟨⟨String.ofList ('^' :: (piece.source ++ ['$'])), wholeNode nodes, piece.slots⟩, nodes,
    _, ?_, hcomposed, rfl⟩
  unfold Matcher.ofPattern
  rw [(repeatedNames_eq_nil_iff p.names).mpr hn]
  simp only [List.isEmpty_nil, Bool.not_true, Bool.false_eq_true, if_false]
  exact bind_eq_ok.mpr ⟨piece, hp, by simp only [hregex]; rfl⟩

end PathRouting.Pattern
