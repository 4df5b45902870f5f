import PathRouting.Pattern.Decomposition
import PathRouting.Pattern.Matcher
import PathRouting.Proofs.Regex.Extending

/-!
# The expression of a tree

The source that is made for a tree is read into the expressions of its parts, one after
another: literal characters, a capturing group for every parameter, and for every optional
group a group that is taken at most once. A condition fills its group and no more.
-/
namespace PathRouting.Pattern

open Regex

def nameSet : Node :=
  .oneOf false [.range 65 90, .range 97 122, .range 48 57, .single 95, .single 45]

def nameRun : Node := .repetition .greedy 1 none nameSet

def literals (text : String) : List Node := text.toList.map fun c => .literal c.toNat

def anyNode (texts : List String) : Node :=
  .group none (.ofAlternatives (texts.map fun text => .ofList (literals text)))

variable {a : Assembly}

section

variable [CharacterNames]

/-- What stands in a parameter's group under a condition, behind a number of groups, and the
number of groups up to its end. -/
inductive Fills (groups : Nat) : Value → Node → Nat → Prop where
  | absent : Fills groups .null nameRun (groups + 1)
  | expression {source : String} {e : Expression} {body : Node} :
      ofChars source.toList = .ok e → e.root.Shifted (groups + 1) body →
      (refersByName source.toList = true → body = e.root.carried (groups + 1)) →
      Fills groups (.str source) body (groups + 1 + e.groups)
  | listed {value : Value} {texts : List String} : listedValues? value = some texts →
      texts ≠ [] → Fills groups value (anyNode texts) (groups + 1)

/-! ## What stands in the group of a parameter -/

/-- What is read behind an opened bracket up to the bracket that closes it. -/
def Inner (x : Node) (source : List Char) : Prop :=
  ∀ {a : Assembly}, a.level.verbose = false → ∀ tail : List Token,
    ∃ b, Assembly.Extends False [x] a b ∧ b.groups.length = a.groups.length ∧
      a.pushAll 0 ((Token.ofChars source).1 ++ .plain ')' :: tail) =
        b.pushAll 0 (.plain ')' :: tail)

theorem pushAll_quantifier {asks : Prop} {a b : Assembly} {x : Node} {t : Token} {style : Style}
    {least : Nat} {most : Option Nat} {ts : List Token} (hb : Assembly.Extends asks [x] a b)
    (hx : Assembly.isAnchor x = false) (hx' : Assembly.isRepetition x = false)
    (hl : readLexeme b.level.verbose t ts = .ok (.quantifier style least most, ts)) :
    ∃ c, Assembly.Extends asks [.repetition style least most x] a c ∧
      c.groups.length = b.groups.length ∧ b.pushAll 0 (t :: ts) = c.pushAll 0 ts := by
  refine ⟨{ b with level := { b.level with
    items := .repetition style least most x :: a.level.items } }, ?_, rfl, ?_⟩
  · exact ⟨hb.frames, by simp [hb.level], hb.flags, hb.asked⟩
  · refine Assembly.pushAll_step [] ts hl ?_
    simp [Assembly.push, Assembly.pushQuantifier, hb.level, hx, hx']

theorem inner_nameRun : Inner nameRun plainValueSource.toList := by
  intro a hv tail
  have htokens : (Token.ofChars plainValueSource.toList).1 =
      .plain '[' :: ("A-Za-z0-9_".toList.map .plain ++ [.escaped '-', .plain ']', .plain '+']) := by
    decide
  have hset := local_readPlain '[' ("A-Za-z0-9_".toList.map .plain ++
    [.escaped '-', .plain ']', .plain '+']) (.node nameSet) [.plain '+'] (by rfl) tail
  have hlexeme := Assembly.pushAll_step (a := a) (t := .plain '[')
    ("A-Za-z0-9_".toList.map .plain ++ [.escaped '-', .plain ']'])
    (.plain '+' :: .plain ')' :: tail) (by rw [hv]; exact hset) rfl
  obtain ⟨b, hb, hg, hread⟩ := pushAll_quantifier (.appendAll False a [nameSet]) rfl rfl
    (show readLexeme a.level.verbose (.plain '+') (.plain ')' :: tail) =
      .ok (.quantifier .greedy 1 none, .plain ')' :: tail) by rw [hv]; rfl)
  rw [htokens]
  exact ⟨b, hb, hg, hlexeme.trans hread⟩

theorem inner_line : Inner (.repetition .greedy 0 none .any) ".*".toList := by
  intro a hv tail
  have htokens : (Token.ofChars ".*".toList).1 = [.plain '.', .plain '*'] := by decide
  have hlexeme := Assembly.pushAll_step (a := a) (t := .plain '.') []
    (.plain '*' :: .plain ')' :: tail) (by rw [hv]; rfl) rfl
  obtain ⟨b, hb, hg, hread⟩ := pushAll_quantifier (.appendAll False a [.any]) rfl rfl
    (show readLexeme a.level.verbose (.plain '*') (.plain ')' :: tail) =
      .ok (.quantifier .greedy 0 none, .plain ')' :: tail) by rw [hv]; rfl)
  rw [htokens]
  exact ⟨b, hb, hg, hlexeme.trans hread⟩

end

def barred (texts : List String) : List Char :=
  ['|'].intercalate (texts.map fun text => escapeText text.toList)

theorem barred_cons_tokens (text text' : String) (texts : List String) :
    Token.ofChars (barred (text :: text' :: texts)) =
      ((Token.ofChars (escapeText text.toList)).1 ++
        .plain '|' :: (Token.ofChars (barred (text' :: texts))).1,
        (Token.ofChars (barred (text' :: texts))).2) := by
  have hb : barred (text :: text' :: texts) =
      escapeText text.toList ++ '|' :: barred (text' :: texts) := by
    simp [barred, List.intercalate_cons_cons]
  rw [hb, Token.ofChars_append (escapeText_whole _), Token.ofChars_cons (by decide)]

theorem barred_whole (texts : List String) : (Token.ofChars (barred texts)).2 = false := by
  induction texts with
  | nil => rfl
  | cons text texts ih =>
    cases texts with
    | nil => simpa [barred] using escapeText_whole text.toList
    | cons text' texts =>
      rw [barred_cons_tokens]
      exact ih

theorem pushAll_barred [CharacterNames] {openedAt : Nat} {outer : Level} {frames : List Regex.Frame}
    {alternatives : List Node} {texts : List String} (hne : texts ≠ [])
    (hf : a.frames = ⟨.plain, openedAt, outer⟩ :: frames)
    (hl : a.level = ⟨alternatives, [], false⟩) (tail : List Token) :
    ∃ l : Level, l.node = .ofAlternatives
        (alternatives.reverse ++ texts.map fun text => .ofList (literals text)) ∧
      a.pushAll 0 ((Token.ofChars (barred texts)).1 ++ tail) =
        { a with level := l }.pushAll 0 tail := by
  induction texts generalizing a alternatives with
  | nil => exact absurd rfl hne
  | cons text texts ih =>
    have hv : a.level.verbose = false := by rw [hl]
    have hnode : (a.appendAll (literals text)).level.current = .ofList (literals text) := by
      simp [Assembly.appendAll, Level.current, hl]
    cases texts with
    | nil =>
      refine ⟨(a.appendAll (literals text)).level, ?_, ?_⟩
      · rw [Level.node, hnode]
        simp [Assembly.appendAll, hl]
      · have hone : barred [text] = escapeText text.toList := by simp [barred]
        rw [hone]
        exact Assembly.pushAll_literal hv text.toList tail
    | cons text' texts =>
      have hbar : (a.appendAll (literals text)).pushAll 0
          (.plain '|' :: ((Token.ofChars (barred (text' :: texts))).1 ++ tail)) =
          { a with level := ⟨.ofList (literals text) :: alternatives, [], false⟩ }.pushAll 0
            ((Token.ofChars (barred (text' :: texts))).1 ++ tail) := by
        have hv' : (a.appendAll (literals text)).level.verbose = false := hv
        refine Assembly.pushAll_step [] _ (by rw [hv']; rfl) ?_
        simp only [Assembly.push, Assembly.pushBar]
        rw [hnode]
        simp [Assembly.appendAll, hf, hl]
      obtain ⟨l, hnode', hread⟩ := ih (a := { a with
        level := ⟨.ofList (literals text) :: alternatives, [], false⟩ }) (by simp) hf rfl
      refine ⟨l, by simpa using hnode', ?_⟩
      rw [barred_cons_tokens]
      have hlit := Assembly.pushAll_literal hv text.toList
        (.plain '|' :: ((Token.ofChars (barred (text' :: texts))).1 ++ tail))
      simp only [List.append_assoc, List.cons_append]
      exact hlit.trans (hbar.trans hread)

theorem anyOf_eq (texts : List String) :
    anyOf texts = '(' :: '?' :: ':' :: (barred texts ++ [')']) := by
  simp [anyOf, barred]

theorem anyOf_tokens (texts : List String) : Token.ofChars (anyOf texts) =
    (.plain '(' :: .plain '?' :: .plain ':' ::
      ((Token.ofChars (barred texts)).1 ++ [.plain ')']), false) := by
  rw [anyOf_eq, Token.ofChars_cons (by decide), Token.ofChars_cons (by decide),
    Token.ofChars_cons (by decide), Token.ofChars_append (barred_whole texts)]
  rfl

section

variable [CharacterNames]

theorem pushAll_anyOf {texts : List String} (hne : texts ≠ []) (hv : a.level.verbose = false)
    (tail : List Token) :
    ∃ b, Assembly.Extends False [anyNode texts] a b ∧ b.groups.length = a.groups.length ∧
      a.pushAll 0 ((Token.ofChars (anyOf texts)).1 ++ tail) = b.pushAll 0 tail := by
  obtain ⟨here, hopen⟩ := a.pushAll_plain
    ((Token.ofChars (barred texts)).1 ++ .plain ')' :: tail)
  obtain ⟨l, hnode, hread⟩ := pushAll_barred (a := a.enter .plain here a.level.verbose) hne rfl
    (by rw [hv]; rfl) (.plain ')' :: tail)
  obtain ⟨b, hb, hx, hg⟩ := Assembly.Extends.close (a := a)
    (b := { a.enter .plain here a.level.verbose with level := l }) rfl rfl (.inr rfl) tail
  have hx' : Assembly.Extends False [anyNode texts] a b := by
    have hc : Bracket.close l .plain = anyNode texts := by
      rw [Bracket.close, hnode]
      rfl
    exact hc ▸ hx
  refine ⟨b, hx', hg, ?_⟩
  rw [anyOf_tokens]
  simp only [List.cons_append, List.append_assoc, List.nil_append]
  exact hopen.trans (hread.trans hb)

theorem inner_anyOf {texts : List String} (hne : texts ≠ []) :
    Inner (anyNode texts) (anyOf texts) := by
  intro a hv tail
  exact pushAll_anyOf hne hv (.plain ')' :: tail)

theorem conditionSource_ok {name : String} {value : Value} {inner : ConditionSource}
    (h : conditionSource name value = .ok inner) :
    (value = .null ∧ inner = ⟨plainValueSource.toList, 0⟩) ∨
    (∃ source e, value = .str source ∧ ofChars source.toList = .ok e ∧
      inner = ⟨source.toList, e.groups⟩) ∨
    (∃ texts, listedValues? value = some texts ∧ texts ≠ [] ∧ inner = ⟨anyOf texts, 0⟩) := by
  unfold conditionSource at h
  split at h
  · exact .inl ⟨rfl, (Except.ok.inj h).symm⟩
  · rename_i source
    split at h
    · rename_i e he
      exact .inr (.inl ⟨source, e, rfl, he, (Except.ok.inj h).symm⟩)
    · cases h
    · cases h
    · cases h
  · split at h
    · cases h
    · cases h
    · rename_i texts hne hl
      exact .inr (.inr ⟨texts, hl, hne, (Except.ok.inj h).symm⟩)

theorem conditionSource_whole {name : String} {value : Value} {inner : ConditionSource}
    (h : conditionSource name value = .ok inner) : (Token.ofChars inner.source).2 = false := by
  obtain ⟨-, rfl⟩ | ⟨source, e, -, he, rfl⟩ | ⟨texts, -, -, rfl⟩ := conditionSource_ok h
  · decide
  · exact (ofChars_ok he).1
  · rw [anyOf_tokens]

theorem Inner.group {x : Node} {source : List Char} (h : Inner x source)
    (hq : ∀ tail : List Token,
      ((Token.ofChars source).1 ++ .plain ')' :: tail).head? ≠ some (.plain '?'))
    (hv : a.level.verbose = false) (tail : List Token) :
    ∃ b, Assembly.Extends False [.group (some (a.groups.length + 1)) x] a b ∧
      b.groups.length = a.groups.length + 1 ∧
      a.pushAll 0 (.plain '(' :: ((Token.ofChars source).1 ++ .plain ')' :: tail)) =
        b.pushAll 0 tail := by
  obtain ⟨here, hopen⟩ := a.pushAll_capture (hq tail)
  obtain ⟨i, hx, hg, hread⟩ := h (a := a.captured here) hv tail
  obtain ⟨b, hb, hx', hg'⟩ := Assembly.Extends.close (a := a) hx.frames hx.flags hx.asked tail
  have hl : (a.captured here).level = .empty false := by
    simp only [Assembly.captured, Assembly.enter, hv]
  have hc : Bracket.close i.level (.capture (a.groups.length + 1)) =
      .group (some (a.groups.length + 1)) x := by
    rw [Bracket.close, hx.node hl]
    rfl
  refine ⟨b, hc ▸ hx', ?_, hopen.trans (hread.trans hb)⟩
  rw [hg', hg]
  simp [Assembly.captured, Assembly.enter]

/-- The group of a parameter is read up to its closing bracket. Where expressions of a user's
own are admitted, reading the whole is known to meet no mistake. -/
theorem pushAll_condition {own : Prop} {name : String} {value : Value} {inner : ConditionSource}
    (h : conditionSource name value = .ok inner)
    (hown : own ∨ ∀ source, value = .str source → source = ".*")
    (hv : a.level.verbose = false) {tail : List Token} {result : Except Regex.Failure Assembly}
    (hr : own → Assembly.Unmistaken result)
    (hread : a.pushAll 0 (.plain '(' :: ((Token.ofChars inner.source).1 ++ .plain ')' :: tail)) =
      result) :
    ∃ b body, Fills a.groups.length value body (a.groups.length + 1 + inner.groups) ∧
      Assembly.Extends own [.group (some (a.groups.length + 1)) body] a b ∧
      b.groups.length = a.groups.length + 1 + inner.groups ∧ b.pushAll 0 tail = result := by
  obtain ⟨rfl, rfl⟩ | ⟨source, e, rfl, he, rfl⟩ | ⟨texts, hl, hne, rfl⟩ := conditionSource_ok h
  · have he : ofChars plainValueSource.toList = .ok ⟨nameRun, 0⟩ := by rfl
    obtain ⟨b, hx, hg, hb⟩ := inner_nameRun.group (Assembly.head_ne_question he) hv tail
    exact ⟨b, nameRun, .absent, hx.mono False.elim, hg, hb ▸ hread⟩
  · rcases hown with ho | ht
    · obtain ⟨b, body, hs, hc, hx, hg, hb⟩ := Assembly.pushAll_embedded he hv (hr ho) hread
      exact ⟨b, body, .expression he hs hc, hx.mono fun _ => ho, hg, hb⟩
    · obtain rfl := ht source rfl
      have hline : ofChars ".*".toList = .ok ⟨.repetition .greedy 0 none .any, 0⟩ := by rfl
      obtain ⟨b, hx, hg, hb⟩ := inner_line.group (Assembly.head_ne_question hline) hv tail
      obtain rfl := Except.ok.inj (he.symm.trans hline)
      exact ⟨b, _, .expression he (.repetition _ _ _ (.simple rfl)) fun _ => rfl,
        hx.mono False.elim, hg, hb ▸ hread⟩
  · have hq : ∀ tail : List Token,
        ((Token.ofChars (anyOf texts)).1 ++ .plain ')' :: tail).head? ≠ some (.plain '?') := by
      intro tail
      rw [anyOf_tokens]
      simp
    obtain ⟨b, hx, hg, hb⟩ := Inner.group (inner_anyOf hne) hq hv tail
    exact ⟨b, anyNode texts, .listed hl hne, hx.mono False.elim, hg, hb ▸ hread⟩

end

/-! ## The parts of a tree -/

section Pieces

variable {condition : String → Except Failure Value} {groups : Nat} {rest : List Segment}
  {piece : Piece}

section

variable [CharacterNames]

theorem pieces_literal {text : String}
    (h : pieces condition groups (.literal text :: rest) = .ok piece) :
    ∃ y, pieces condition groups rest = .ok y ∧
      piece = ⟨escapeText text.toList ++ y.source, y.slots, y.groups⟩ := by
  obtain ⟨x, hx, h⟩ := bind_eq_ok.mp h
  obtain ⟨y, hy, h⟩ := bind_eq_ok.mp h
  obtain rfl := Except.ok.inj hx
  exact ⟨y, hy, (Except.ok.inj h).symm⟩

theorem pieces_param {name : String}
    (h : pieces condition groups (.param name :: rest) = .ok piece) :
    ∃ value inner y, condition name = .ok value ∧ conditionSource name value = .ok inner ∧
      pieces condition (groups + 1 + inner.groups) rest = .ok y ∧
      piece = ⟨'(' :: (inner.source ++ ')' :: y.source), (name, groups + 1) :: y.slots,
        y.groups⟩ := by
  obtain ⟨x, hx, h⟩ := bind_eq_ok.mp h
  obtain ⟨y, hy, h⟩ := bind_eq_ok.mp h
  obtain ⟨value, hv, hx⟩ := bind_eq_ok.mp hx
  obtain ⟨inner, hi, hx⟩ := bind_eq_ok.mp hx
  obtain rfl := Except.ok.inj hx
  refine ⟨value, inner, y, hv, hi, hy, ?_⟩
  obtain rfl := Except.ok.inj h
  simp

theorem pieces_optional {dependsOn : List String} {parts : List Segment}
    (h : pieces condition groups (.optional dependsOn parts :: rest) = .ok piece) :
    ∃ x y, pieces condition groups parts = .ok x ∧ pieces condition x.groups rest = .ok y ∧
      piece = ⟨'(' :: '?' :: ':' :: (x.source ++ ')' :: '?' :: y.source), x.slots ++ y.slots,
        y.groups⟩ := by
  obtain ⟨x, hx, h⟩ := bind_eq_ok.mp h
  obtain ⟨y, hy, h⟩ := bind_eq_ok.mp h
  obtain ⟨inner, hi, hx⟩ := bind_eq_ok.mp hx
  obtain rfl := Except.ok.inj hx
  refine ⟨inner, y, hi, hy, ?_⟩
  obtain rfl := Except.ok.inj h
  simp

theorem pieces_whole {parts : List Segment} (h : pieces condition groups parts = .ok piece) :
    (Token.ofChars piece.source).2 = false := by
  induction parts using Segment.sequence_induction generalizing groups piece with
  | nil =>
    obtain rfl := Except.ok.inj h
    rfl
  | literal text rest ih =>
    obtain ⟨y, hy, rfl⟩ := pieces_literal h
    rw [Token.ofChars_append (escapeText_whole _)]
    exact ih hy
  | param name rest ih =>
    obtain ⟨value, inner, y, -, hi, hy, rfl⟩ := pieces_param h
    rw [Token.ofChars_cons (by decide), Token.ofChars_append (conditionSource_whole hi),
      Token.ofChars_cons (by decide)]
    exact ih hy
  | optional dependsOn parts rest ihp ihr =>
    obtain ⟨x, y, hx, hy, rfl⟩ := pieces_optional h
    rw [Token.ofChars_cons (by decide), Token.ofChars_cons (by decide),
      Token.ofChars_cons (by decide), Token.ofChars_append (ihp hx),
      Token.ofChars_cons (by decide), Token.ofChars_cons (by decide)]
    exact ihr hy

end

/-- Nothing that stands before these tokens can take its style from them. -/
def Settled (ts : List Token) : Prop := readStyle ts = (.greedy, ts)

theorem settled_cons {t : Token} {ts : List Token} (h : t ≠ .plain '?') (h' : t ≠ .plain '+') :
    Settled (t :: ts) := by
  simp [Settled, readStyle, h, h']

variable [CharacterNames]

theorem pieces_settled {parts : List Segment} (h : pieces condition groups parts = .ok piece)
    {tail : List Token} (ht : Settled tail) :
    Settled ((Token.ofChars piece.source).1 ++ tail) := by
  induction parts using Segment.sequence_induction generalizing groups piece with
  | nil =>
    obtain rfl := Except.ok.inj h
    exact ht
  | literal text rest ih =>
    obtain ⟨y, hy, rfl⟩ := pieces_literal h
    cases hl : text.toList with
    | nil => exact ih hy
    | cons c cs =>
      rw [Token.ofChars_append (escapeText_whole _), escapeText_cons_tokens]
      refine settled_cons ?_ ?_ <;> cases hs : isSpecial c <;> rintro ⟨⟩ <;> cases hs
  | param name rest ih =>
    obtain ⟨value, inner, y, -, hi, hy, rfl⟩ := pieces_param h
    rw [Token.ofChars_cons (by decide)]
    exact settled_cons (by decide) (by decide)
  | optional dependsOn parts rest ihp ihr =>
    obtain ⟨x, y, hx, hy, rfl⟩ := pieces_optional h
    rw [Token.ofChars_cons (by decide)]
    exact settled_cons (by decide) (by decide)

/-- The expressions of the parts of a tree behind a number of groups, with the parameters' groups
and the number of groups up to the end. -/
inductive Composed (condition : String → Except Failure Value) :
    Nat → List Segment → List (String × Nat) → List Node → Nat → Prop where
  | nil (groups : Nat) : Composed condition groups [] [] [] groups
  | literal (text : String) {groups last : Nat} {rest : List Segment}
      {slots : List (String × Nat)} {nodes : List Node} :
      Composed condition groups rest slots nodes last →
      Composed condition groups (.literal text :: rest) slots (literals text ++ nodes) last
  | param {name : String} {value : Value} {body : Node} {groups middle last : Nat}
      {rest : List Segment} {slots : List (String × Nat)} {nodes : List Node} :
      condition name = .ok value → Fills groups value body middle →
      Composed condition middle rest slots nodes last →
      Composed condition groups (.param name :: rest) ((name, groups + 1) :: slots)
        (.group (some (groups + 1)) body :: nodes) last
  | optional (dependsOn : List String) {groups middle last : Nat} {parts rest : List Segment}
      {slots slots' : List (String × Nat)} {nodes nodes' : List Node} :
      Composed condition groups parts slots nodes middle →
      Composed condition middle rest slots' nodes' last →
      Composed condition groups (.optional dependsOn parts :: rest) (slots ++ slots')
        (.repetition .greedy 0 (some 1) (.group none (.ofList nodes)) :: nodes') last

theorem pushAll_optional {own : Prop} {nodes : List Node} {here : Nat} {a b : Assembly}
    (hv : a.level.verbose = false)
    (hb : Assembly.Extends own nodes (a.enter .plain here a.level.verbose) b)
    {tail : List Token} (ht : Settled tail) :
    ∃ c, b.pushAll 0 (.plain ')' :: .plain '?' :: tail) = c.pushAll 0 tail ∧
      Assembly.Extends own [.repetition .greedy 0 (some 1) (.group none (.ofList nodes))] a c ∧
      c.groups.length = b.groups.length := by
  obtain ⟨c, hc, hx, hg⟩ := Assembly.Extends.close (a := a) hb.frames hb.flags hb.asked
    (.plain '?' :: tail)
  have hnode : Bracket.close b.level .plain = .group none (.ofList nodes) := by
    rw [Bracket.close, hb.node (by rw [hv]; rfl)]
  rw [hnode] at hx
  have hl : readLexeme c.level.verbose (.plain '?') tail =
      .ok (.quantifier .greedy 0 (some 1), tail) := by
    rw [hx.verbose, hv]
    simp only [readLexeme, Bool.false_and, readPlain, quantifier]
    rw [ht]
    rfl
  obtain ⟨d, hd, hg', hread⟩ := pushAll_quantifier hx rfl rfl hl
  exact ⟨d, hc.trans hread, hd, hg'.trans hg⟩

theorem pieces_composed {own : Prop} {parts : List Segment}
    (h : pieces condition groups parts = .ok piece)
    (hown : own ∨ ∀ name ∈ Segment.namesOf parts, ∀ source,
      condition name = .ok (.str source) → source = ".*")
    {a : Assembly} (hv : a.level.verbose = false) (hg : a.groups.length = groups)
    {tail : List Token} (ht : Settled tail) {result : Except Regex.Failure Assembly}
    (hr : own → Assembly.Unmistaken result)
    (hread : a.pushAll 0 ((Token.ofChars piece.source).1 ++ tail) = result) :
    ∃ b nodes, Composed condition groups parts piece.slots nodes piece.groups ∧
      Assembly.Extends own nodes a b ∧ b.groups.length = piece.groups ∧
      b.pushAll 0 tail = result := by
  induction parts using Segment.sequence_induction generalizing groups piece a tail with
  | nil =>
    obtain rfl := Except.ok.inj h
    exact ⟨a, [], .nil groups, .appendAll own a [], hg, hread⟩
  | literal text rest ih =>
    obtain ⟨y, hy, rfl⟩ := pieces_literal h
    rw [Token.ofChars_append (escapeText_whole _), List.append_assoc,
      Assembly.pushAll_literal hv] at hread
    obtain ⟨b, nodes, hc, hx, hgb, hb⟩ := ih hy hown (a := a.appendAll (literals text)) hv hg ht
      hread
    exact ⟨b, _, .literal text hc, (Assembly.Extends.appendAll own a _).trans hx, hgb, hb⟩
  | param name rest ih =>
    obtain ⟨value, inner, y, hn, hi, hy, rfl⟩ := pieces_param h
    subst hg
    have hown₁ : own ∨ ∀ source, value = .str source → source = ".*" :=
      hown.imp_right fun hs source hv => hs name (by simp [Segment.namesOf, Segment.names]) source
        (hv ▸ hn)
    have hown₂ : own ∨ ∀ name ∈ Segment.namesOf rest, ∀ source,
        condition name = .ok (.str source) → source = ".*" :=
      hown.imp_right fun hs other ho => hs other
        (by simp [Segment.namesOf, Segment.names, ho])
    rw [Token.ofChars_cons (by decide), Token.ofChars_append (conditionSource_whole hi),
      Token.ofChars_cons (by decide), List.cons_append, List.append_assoc,
      List.cons_append] at hread
    obtain ⟨b, body, hf, hx, hgb, hb⟩ := pushAll_condition hi hown₁ hv hr hread
    obtain ⟨c, nodes, hc, hx', hgc, hd⟩ := ih hy hown₂ (hx.verbose.trans hv) hgb ht hb
    exact ⟨c, _, .param hn hf hc, hx.trans hx', hgc, hd⟩
  | optional dependsOn parts rest ihp ihr =>
    obtain ⟨x, y, hx, hy, rfl⟩ := pieces_optional h
    subst hg
    have hown₁ : own ∨ ∀ name ∈ Segment.namesOf parts, ∀ source,
        condition name = .ok (.str source) → source = ".*" :=
      hown.imp_right fun hs other ho => hs other
        (by simp [Segment.namesOf, Segment.names, ho])
    have hown₂ : own ∨ ∀ name ∈ Segment.namesOf rest, ∀ source,
        condition name = .ok (.str source) → source = ".*" :=
      hown.imp_right fun hs other ho => hs other
        (by simp [Segment.namesOf, Segment.names, ho])
    have hsettled : Settled (.plain ')' :: .plain '?' ::
        ((Token.ofChars y.source).1 ++ tail)) := settled_cons (by decide) (by decide)
    rw [Token.ofChars_cons (by decide), Token.ofChars_cons (by decide),
      Token.ofChars_cons (by decide), Token.ofChars_append (pieces_whole hx),
      Token.ofChars_cons (by decide), Token.ofChars_cons (by decide)] at hread
    simp only [List.cons_append, List.append_assoc] at hread
    obtain ⟨here, hopen⟩ := a.pushAll_plain ((Token.ofChars x.source).1 ++ .plain ')' ::
      .plain '?' :: ((Token.ofChars y.source).1 ++ tail))
    rw [hopen] at hread
    obtain ⟨i, nodes, hci, hxi, hgi, hi⟩ := ihp hx hown₁
      (a := a.enter .plain here a.level.verbose) hv rfl hsettled hread
    obtain ⟨b, hb, hxb, hgb⟩ := pushAll_optional hv hxi (pieces_settled hy ht)
    obtain ⟨c, nodes', hcc, hxc, hgc, hc⟩ := ihr hy hown₂ (hxb.verbose.trans hv)
      (hgb.trans hgi) ht (hb ▸ hi)
    exact ⟨c, _, .optional dependsOn hci hcc, hxb.trans hxc, hgc, hc⟩

end Pieces

end PathRouting.Pattern
