import PathRouting.Proofs.Pattern.Enclosure
import PathRouting.Proofs.Regex.Closing

/-!
# Splitting the source of a matcher

Along its tree, the source of a matcher splits into the sources of the conditions in one way only:
the group of a parameter can end in one place. So the tree and the source tell the numbers of the
parameters' groups, under whatever conditions the tree was compiled.
-/
namespace PathRouting.Pattern

open Regex

variable {condition condition' : String → Except Failure Value} {groups : Nat} {name : String}
  {value value' : Value} {inner inner' : ConditionSource} {parts : List Segment} {x y : Piece}
  {a c : Assembly} {rest rest' : List Char}

variable [CharacterNames]

theorem conditionSource_expression (h : conditionSource name value = .ok inner) :
    ∃ e, ofChars inner.source = .ok e ∧ inner.groups = e.groups := by
  rcases conditionSource_ok h with ⟨-, rfl⟩ | ⟨source, e, -, he, rfl⟩ | ⟨texts, -, hne, rfl⟩
  · exact ⟨⟨nameRun, 0⟩, by rfl, rfl⟩
  · exact ⟨e, he, rfl⟩
  · exact ⟨_, ofChars_anyOf hne, rfl⟩

/-- The group of a parameter tells the source of its condition and the groups in it. -/
theorem condition_unique (h : conditionSource name value = .ok inner)
    (h' : conditionSource name value' = .ok inner')
    (heq : inner.source ++ ')' :: rest = inner'.source ++ ')' :: rest')
    (hv : a.level.verbose = false)
    (hc : a.pushAll 0 (.plain '(' :: (Token.ofChars (inner.source ++ ')' :: rest)).1) = .ok c) :
    inner = inner' ∧ rest = rest' := by
  obtain ⟨e, he, hg⟩ := conditionSource_expression h
  obtain ⟨e', he', hg'⟩ := conditionSource_expression h'
  obtain ⟨hsource, hrest⟩ := Assembly.group_unique he he' heq hv hc
  rw [hsource] at he
  obtain rfl := Except.ok.inj (he.symm.trans he')
  cases inner
  cases inner'
  dsimp only at hsource hg hg'
  rw [hsource, hg, hg']
  exact ⟨rfl, hrest⟩

/-- The sources of the parts of a tree under two conditions, with something behind each, are one
text only if all of it is the same. -/
theorem pieces_unique (h : pieces condition groups parts = .ok x)
    (h' : pieces condition' groups parts = .ok y) (heq : x.source ++ rest = y.source ++ rest')
    (hv : a.level.verbose = false) (hg : a.groups.length = groups)
    (hs : Settled (Token.ofChars rest).1)
    (hc : a.pushAll 0 (Token.ofChars (x.source ++ rest)).1 = .ok c) : x = y ∧ rest = rest' := by
  induction parts using Segment.sequence_induction generalizing groups x y a rest rest' with
  | nil =>
    obtain rfl := Except.ok.inj h
    obtain rfl := Except.ok.inj h'
    exact ⟨rfl, heq⟩
  | literal text more ih =>
    obtain ⟨x, hx, rfl⟩ := pieces_literal h
    obtain ⟨y, hy, rfl⟩ := pieces_literal h'
    simp only [List.append_assoc] at heq hc
    rw [Token.ofChars_append (escapeText_whole _), Assembly.pushAll_literal hv] at hc
    obtain ⟨rfl, hrest⟩ := ih hx hy (List.append_cancel_left heq)
      (a := a.appendAll (literals text)) hv hg hs hc
    exact ⟨rfl, hrest⟩
  | param name more ih =>
    obtain ⟨value, inner, x, -, hi, hx, rfl⟩ := pieces_param h
    obtain ⟨value', inner', y, -, hi', hy, rfl⟩ := pieces_param h'
    subst hg
    simp only [List.cons_append, List.append_assoc] at heq hc
    rw [Token.ofChars_cons (by decide)] at hc
    -- the conditions are the same, so that the groups behind them are numbered alike
    obtain ⟨rfl, hbehind⟩ := condition_unique hi hi' (List.cons.inj heq).2 hv hc
    rw [Token.ofChars_append (conditionSource_whole hi), Token.ofChars_cons (by decide)] at hc
    obtain ⟨b, body, -, hxb, hgb, hb⟩ :=
      pushAll_condition hi (.inl True.intro) hv (fun _ => Assembly.unmistaken_ok c) hc
    obtain ⟨rfl, hrest⟩ := ih hx hy hbehind (hxb.verbose.trans hv) hgb hs hb
    exact ⟨rfl, hrest⟩
  | optional dependsOn parts more ihp ihr =>
    obtain ⟨x, z, hx, hz, rfl⟩ := pieces_optional h
    obtain ⟨y, w, hy, hw, rfl⟩ := pieces_optional h'
    subst hg
    simp only [List.cons_append, List.append_assoc, List.cons.injEq, true_and] at heq hc
    rw [Token.ofChars_cons (by decide), Token.ofChars_cons (by decide),
      Token.ofChars_cons (by decide)] at hc
    obtain ⟨here, hopen⟩ :=
      a.pushAll_plain (Token.ofChars (x.source ++ ')' :: '?' :: (z.source ++ rest))).1
    rw [hopen] at hc
    have hclosing : Settled (Token.ofChars (')' :: '?' :: (z.source ++ rest))).1 := by
      rw [Token.ofChars_cons (by decide)]
      exact settled_cons (by decide) (by decide)
    obtain ⟨rfl, hbehind⟩ := ihp hx hy heq (a := a.enter .plain here a.level.verbose) hv rfl
      hclosing hc
    rw [Token.ofChars_append (pieces_whole hx)] at hc
    obtain ⟨i, nodes, -, hxi, hgi, hi⟩ := pieces_composed hx (.inl True.intro)
      (a := a.enter .plain here a.level.verbose) hv rfl hclosing
      (fun _ => Assembly.unmistaken_ok c) hc
    have hsettled : Settled (Token.ofChars (z.source ++ rest)).1 := by
      rw [Token.ofChars_append (pieces_whole hz)]
      exact pieces_settled hz hs
    obtain ⟨b, hb, hxb, hgb⟩ := pushAll_optional hv hxi hsettled
    rw [Token.ofChars_cons (by decide), Token.ofChars_cons (by decide), hb] at hi
    simp only [List.cons.injEq, true_and] at hbehind
    obtain ⟨rfl, hrest⟩ := ihr hz hw hbehind (hxb.verbose.trans hv) (hgb.trans hgi) hs hi
    exact ⟨rfl, hrest⟩

theorem Matcher.ofPattern_unique {p q : Pattern} {conditions conditions' : Value}
    {m m' : Matcher} (h : Matcher.ofPattern p conditions = .ok m)
    (h' : Matcher.ofPattern q conditions' = .ok m') (hparts : p.parts = q.parts)
    (hsource : m.source = m'.source) : m = m' := by
  obtain ⟨-, x, e, hx, he, rfl⟩ := Matcher.ofPattern_source h
  obtain ⟨-, y, e', hy, he', rfl⟩ := Matcher.ofPattern_source h'
  have heq : '^' :: (x.source ++ ['$']) = '^' :: (y.source ++ ['$']) :=
    String.ofList_injective hsource
  obtain ⟨-, b, hread, -, -⟩ := ofChars_ok he
  rw [Token.ofChars_cons (by decide)] at hread
  have hstart := Assembly.pushAll_step (a := .start) (t := .plain '^') []
    (Token.ofChars (x.source ++ ['$'])).1 rfl rfl
  obtain ⟨rfl, -⟩ := pieces_unique hx (hparts ▸ hy) (List.cons.inj heq).2
    (a := Assembly.start.append (.anchor .lineStart)) rfl rfl
    (settled_cons (by decide) (by decide)) (hstart.symm.trans hread)
  obtain rfl := Except.ok.inj (he.symm.trans he')
  rfl

end PathRouting.Pattern
