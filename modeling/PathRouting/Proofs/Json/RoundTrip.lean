import Mathlib.Tactic.SplitIfs
import PathRouting.Json.OfValue
import PathRouting.Json.Reader
import PathRouting.Proofs.Text.Utf8
import PathRouting.Regex.Error

/-!
# Documents are read back

A document of texts, arrays and objects that is written in any layout is read as the same
document, so different documents have different texts.
-/
namespace PathRouting.Json

open PathRouting.Text

/-! ## Texts -/

theorem hexDigit_lowerHexDigit : ∀ n < 16, hexDigit? (lowerHexDigit n) = some n := by decide

theorem escapeUnit_eq {n : Nat} (h : n < 0x10000) : ∃ a b c d,
    escapeUnit n = ['\\', 'u', a, b, c, d] ∧ unit? a b c d = some n := by
  refine ⟨_, _, _, _, rfl, ?_⟩
  simp only [unit?, hexDigit_lowerHexDigit _ (Nat.mod_lt _ (by decide : 0 < 16))]
  congr 1
  omega

variable {opened : Nat} {c : Char} {rest : List Char}

theorem readText_simple {x : Char} (hc : c ≠ 'u') (h : simpleEscape? c = some x) :
    readText opened ('\\' :: c :: rest) = prepend x (readText opened rest) := by
  rw [readText, h]
  -- the other forms of an escape begin with `u`
  all_goals
    intros
    contradiction

theorem readText_plain (hq : c ≠ '"') (hb : c ≠ '\\') (h : 32 ≤ c.toNat) :
    readText opened (c :: rest) = prepend c (readText opened rest) := by
  rw [readText, if_neg (by omega)]
  all_goals
    intros
    contradiction

theorem readText_unit {n : Nat} (h : n < 0xD800 ∨ 0xDFFF < n ∧ n < 0x10000) (e : Char) :
    readText opened (escapeUnit n ++ e :: rest) =
      prepend (Char.ofNat n) (readText opened (e :: rest)) := by
  obtain ⟨a, b, c, d, hn, hu⟩ := escapeUnit_eq (n := n) (by omega)
  have hchar : ofUnit n = Char.ofNat n := by
    unfold ofUnit
    rw [if_neg (by simp; omega)]
  rw [hn]
  simp only [List.cons_append, List.nil_append]
  -- the reader looks for the second half of a pair only where a `\u` stands behind
  by_cases hpair : ∃ e' f g h i rest', e = '\\' ∧ rest = 'u' :: e' :: f :: g :: h :: i :: rest'
  · obtain ⟨e', f, g, h', i, rest', rfl, rfl⟩ := hpair
    rw [readText, hu]
    dsimp only
    rw [if_neg (by simp; omega), hchar]
  · rw [readText, hu]
    · dsimp only
      rw [hchar]
    · intro e' f g h i rest' he hr
      exact hpair ⟨e', f, g, h, i, rest', he, hr⟩

theorem readText_pair {n : Nat} (h : n < 0x100000) (i : Char) :
    readText opened (escapeUnit (0xD800 + n / 0x400) ++ escapeUnit (0xDC00 + n % 0x400) ++
      i :: rest) = prepend (Char.ofNat (n + 0x10000)) (readText opened (i :: rest)) := by
  obtain ⟨a, b, c, d, hhigh, hu⟩ := escapeUnit_eq (n := 0xD800 + n / 0x400) (by omega)
  obtain ⟨e, f, g, j, hlow, hl⟩ := escapeUnit_eq (n := 0xDC00 + n % 0x400) (by omega)
  have hn : 0x10000 + (0xD800 + n / 0x400 - 0xD800) * 0x400 + (0xDC00 + n % 0x400 - 0xDC00) =
      n + 0x10000 := by omega
  rw [hhigh, hlow]
  simp only [List.cons_append, List.nil_append]
  rw [readText, hu]
  dsimp only
  rw [if_pos (by simp; omega), hl]
  dsimp only
  rw [if_pos (by simp; omega), hn]

theorem readText_escapeChar (c e : Char) :
    readText opened (escapeChar c ++ e :: rest) = prepend c (readText opened (e :: rest)) := by
  have hvalid := toNat_valid c
  have hback : ∀ n, c.toNat = n → c = Char.ofNat n := fun n hn => hn ▸ (Char.ofNat_toNat c).symm
  unfold escapeChar
  split_ifs with h1 h2 h3 h4 h5 h6 h7 h8 h9
  · obtain rfl := beq_iff_eq.mp h1
    exact readText_simple (by decide) rfl
  · obtain rfl := beq_iff_eq.mp h2
    exact readText_simple (by decide) rfl
  · obtain rfl := beq_iff_eq.mp h3
    exact readText_simple (by decide) rfl
  · obtain rfl := beq_iff_eq.mp h4
    exact readText_simple (by decide) rfl
  · obtain rfl := beq_iff_eq.mp h5
    exact readText_simple (by decide) rfl
  · obtain rfl := hback 12 (beq_iff_eq.mp h6)
    exact readText_simple (by decide) rfl
  · obtain rfl := hback 8 (beq_iff_eq.mp h7)
    exact readText_simple (by decide) rfl
  · have hprintable : 32 ≤ c.toNat ∧ c.toNat < 127 := by simpa using h8
    exact readText_plain (by simpa using h1) (by simpa using h2) hprintable.1
  · rw [readText_unit (by omega), Char.ofNat_toNat]
  · have hn : c.toNat - 0x10000 + 0x10000 = c.toNat := by omega
    rw [readText_pair (by omega), hn, Char.ofNat_toNat]

theorem readText_escaped (cs : List Char) :
    readText opened (cs.flatMap escapeChar ++ '"' :: rest) = .ok (cs, rest) := by
  induction cs with
  | nil =>
    rw [List.flatMap_nil, List.nil_append, readText]
  | cons c cs ih =>
    obtain ⟨e, behind, hne⟩ : ∃ e behind, cs.flatMap escapeChar ++ '"' :: rest = e :: behind :=
      List.exists_cons_of_ne_nil (by simp)
    rw [List.flatMap_cons, List.append_assoc, hne, readText_escapeChar, ← hne, ih]
    rfl

theorem writeText_append (s : String) (rest : List Char) :
    writeText s ++ rest = '"' :: (s.toList.flatMap escapeChar ++ '"' :: rest) := by
  simp [writeText]

/-! ## Documents -/

/-- Documents of texts, arrays and objects, in which an object has no name twice. -/
inductive Textual : Json → Prop where
  | str (s : String) : Textual (.str s)
  | arr {items : List Json} : (∀ x ∈ items, Textual x) → Textual (.arr items)
  | obj {members : List (String × Json)} : (members.map Prod.fst).Nodup →
      (∀ m ∈ members, Textual m.2) → Textual (.obj members)

theorem Textual.texts (texts : List String) : Textual (.arr (texts.map .str)) := by
  refine .arr fun x hx => ?_
  obtain ⟨text, -, rfl⟩ := List.mem_map.mp hx
  exact .str text

variable {layout : Layout} {depth fuel : Nat} {x : Json} {s : List Char}

/-! ### White space -/

theorem skipSpace_append {blanks : List Char} (h : ∀ c ∈ blanks, isSpace c = true)
    (s : List Char) : skipSpace (blanks ++ s) = skipSpace s := by
  induction blanks with
  | nil => rfl
  | cons c blanks ih =>
    rw [List.cons_append, skipSpace, List.dropWhile_cons_of_pos (h c (List.mem_cons_self ..))]
    exact ih fun d hd => h d (List.mem_cons_of_mem _ hd)

theorem skipSpace_cons (h : isSpace c = false) : skipSpace (c :: rest) = c :: rest :=
  List.dropWhile_cons_of_neg (by simp [h])

/-- What stands before an item is white space, behind a comma if it is not the first one. -/
theorem before_eq (layout : Layout) (depth : Nat) : ∃ blanks blanks' : List Char,
    (∀ c ∈ blanks, isSpace c = true) ∧ (∀ c ∈ blanks', isSpace c = true) ∧
      layout.before depth true = blanks ∧ layout.before depth false = ',' :: blanks' := by
  cases layout with
  | oneLine => exact ⟨[], [' '], by simp, by simp [isSpace], rfl, rfl⟩
  | indented width =>
    have hblank : ∀ c ∈ '\n' :: List.replicate (width * depth) ' ', isSpace c = true := by
      intro c hc
      rcases List.mem_cons.mp hc with rfl | hc
      · rfl
      · rw [List.eq_of_mem_replicate hc]
        rfl
    exact ⟨_, _, hblank, hblank, rfl, rfl⟩

theorem close_blank (layout : Layout) (depth : Nat) :
    ∀ c ∈ layout.close depth, isSpace c = true := by
  cases layout with
  | oneLine => simp [Layout.close]
  | indented width =>
    intro c hc
    rcases List.mem_cons.mp hc with rfl | hc
    · rfl
    · rw [List.eq_of_mem_replicate hc]
      rfl

theorem write_head (h : x.Textual) (layout : Layout) (depth : Nat) : ∃ c cs,
    write layout depth x = c :: cs ∧ (c = '"' ∨ c = '[' ∨ c = '\x7b') := by
  cases h with
  | str s => exact ⟨'"', _, rfl, .inl rfl⟩
  | arr _ =>
    rw [write]
    split <;> exact ⟨'[', _, rfl, .inr (.inl rfl)⟩
  | obj _ _ =>
    rw [write]
    split <;> exact ⟨'\x7b', _, rfl, .inr (.inr rfl)⟩

theorem skipSpace_write (h : x.Textual) (layout : Layout) (depth : Nat) (rest : List Char) :
    skipSpace (write layout depth x ++ rest) = write layout depth x ++ rest := by
  obtain ⟨c, cs, hw, hc⟩ := write_head h layout depth
  have hspace : isSpace c = false := by rcases hc with rfl | rfl | rfl <;> rfl
  rw [hw, List.cons_append]
  exact skipSpace_cons hspace

/-! ### Items and members -/

/-- That a document is read back whatever stands behind it, if the bound on the depth allows
for its length. -/
def ReadsBack (x : Json) : Prop :=
  ∀ (layout : Layout) (depth fuel : Nat) (rest : List Char),
    2 * (write layout depth x).length ≤ fuel →
      readValue fuel (write layout depth x ++ rest) = .ok (x, rest)

/-- The text of items behind the first one, up to and with the closing bracket. -/
def itemsTail (layout : Layout) (depth : Nat) (items : List Json) (rest : List Char) :
    List Char :=
  writeItems layout (depth + 1) false items ++ layout.close depth ++ ']' :: rest

theorem readItems_write {items : List Json} (h : ∀ y ∈ x :: items, y.Textual ∧ ReadsBack y)
    (hf : 2 * ((write layout (depth + 1) x).length +
      (writeItems layout (depth + 1) false items).length) < fuel) :
    readItems fuel (write layout (depth + 1) x ++ itemsTail layout depth items rest) =
      .ok (x :: items, rest) := by
  -- every item takes one step off the bound, and its text is longer than that
  induction items generalizing x fuel with
  | nil =>
    obtain ⟨fuel, rfl⟩ : ∃ k, fuel = k + 1 := ⟨fuel - 1, by omega⟩
    have hx := (h x (by simp)).2 layout (depth + 1) fuel (itemsTail layout depth [] rest)
      (by omega)
    have hclose : skipSpace (itemsTail layout depth [] rest) = ']' :: rest := by
      rw [itemsTail, writeItems, List.nil_append, skipSpace_append (close_blank layout depth)]
      exact skipSpace_cons rfl
    rw [readItems, hx]
    simp only [bind, Except.bind]
    rw [hclose]
    rfl
  | cons y items ih =>
    obtain ⟨fuel, rfl⟩ : ∃ k, fuel = k + 1 := ⟨fuel - 1, by omega⟩
    obtain ⟨-, blanks, -, hblanks, -, hbefore⟩ := before_eq layout (depth + 1)
    obtain ⟨c, cs, hw, -⟩ := write_head (h x (by simp)).1 layout (depth + 1)
    have hlength : 0 < (write layout (depth + 1) x).length := by rw [hw]; simp
    rw [writeItems, hbefore] at hf
    simp only [List.length_append, List.length_cons] at hf
    have hx := (h x (by simp)).2 layout (depth + 1) fuel (itemsTail layout depth (y :: items) rest)
      (by omega)
    have htail : itemsTail layout depth (y :: items) rest =
        ',' :: (blanks ++ (write layout (depth + 1) y ++ itemsTail layout depth items rest)) := by
      simp [itemsTail, writeItems, hbefore]
    have hskip : skipSpace (itemsTail layout depth (y :: items) rest) =
        itemsTail layout depth (y :: items) rest := by
      rw [htail]
      exact skipSpace_cons rfl
    have hnext : skipSpace (blanks ++
        (write layout (depth + 1) y ++ itemsTail layout depth items rest)) =
        write layout (depth + 1) y ++ itemsTail layout depth items rest := by
      rw [skipSpace_append hblanks]
      exact skipSpace_write (h y (by simp)).1 layout (depth + 1) _
    have hy : readItems fuel (write layout (depth + 1) y ++ itemsTail layout depth items rest) =
        .ok (y :: items, rest) := ih (fun z hz => h z (List.mem_cons_of_mem _ hz)) (by omega)
    rw [readItems, hx]
    simp only [bind, Except.bind]
    rw [hskip, htail]
    simp only [hnext, hy]
    rfl

theorem setMember_of_notMem {members : List (String × Json)} {name : String}
    (h : name ∉ members.map Prod.fst) (x : Json) :
    setMember members name x = members ++ [(name, x)] := by
  induction members with
  | nil => rfl
  | cons m members ih =>
    rw [List.map_cons, List.mem_cons, not_or] at h
    rw [setMember, if_neg (Ne.symm h.1), ih h.2]
    rfl

/-- The text of members behind the first one, up to and with the closing bracket. -/
def membersTail (layout : Layout) (depth : Nat) (members : List (String × Json))
    (rest : List Char) : List Char :=
  writeMembers layout (depth + 1) false members ++ layout.close depth ++ '\x7d' :: rest

theorem readMembers_first {before : List (String × Json)} {name : String} {tail : List Char}
    (hx : x.Textual) (hread : readValue fuel (write layout depth x ++ tail) = .ok (x, tail))
    (hnew : name ∉ before.map Prod.fst) :
    readMembers (fuel + 1) before
      (writeText name ++ (':' :: ' ' :: (write layout depth x ++ tail))) =
      match skipSpace tail with
      | '\x7d' :: rest => .ok (before ++ [(name, x)], rest)
      | ',' :: rest => readMembers fuel (before ++ [(name, x)]) (skipSpace rest)
      | rest => stopAt .expectingComma rest := by
  have hcolon : ∀ s, skipSpace (':' :: s) = ':' :: s := fun s => skipSpace_cons rfl
  have hvalue : skipSpace (' ' :: (write layout depth x ++ tail)) =
      write layout depth x ++ tail := skipSpace_write hx layout depth tail
  rw [writeText_append, readMembers, readText_escaped]
  simp only [bind, Except.bind]
  rw [hcolon]
  simp only [hvalue, hread, String.ofList_toList, setMember_of_notMem hnew]
  rfl

theorem readMembers_write {before members : List (String × Json)} {name : String}
    (h : ∀ m ∈ (name, x) :: members, m.2.Textual ∧ ReadsBack m.2)
    (hn : ((before ++ (name, x) :: members).map Prod.fst).Nodup)
    (hf : 2 * ((write layout (depth + 1) x).length +
      (writeMembers layout (depth + 1) false members).length) < fuel) :
    readMembers fuel before (writeText name ++ (':' :: ' ' :: (write layout (depth + 1) x ++
      membersTail layout depth members rest))) = .ok (before ++ (name, x) :: members, rest) := by
  induction members generalizing before name x fuel with
  | nil =>
    obtain ⟨fuel, rfl⟩ : ∃ k, fuel = k + 1 := ⟨fuel - 1, by omega⟩
    obtain ⟨hx, hread⟩ : x.Textual ∧ ReadsBack x := h (name, x) (by simp)
    have hnew : name ∉ before.map Prod.fst := by
      rw [List.map_append, List.nodup_append] at hn
      exact fun hm => hn.2.2 name hm name (by simp) rfl
    have hclose : skipSpace (membersTail layout depth [] rest) = '\x7d' :: rest := by
      rw [membersTail, writeMembers, List.nil_append,
        skipSpace_append (close_blank layout depth)]
      exact skipSpace_cons rfl
    rw [readMembers_first hx (hread layout (depth + 1) fuel _ (by omega)) hnew, hclose]
    rfl
  | cons m members ih =>
    obtain ⟨other, y⟩ := m
    obtain ⟨fuel, rfl⟩ : ∃ k, fuel = k + 1 := ⟨fuel - 1, by omega⟩
    obtain ⟨hx, hread⟩ : x.Textual ∧ ReadsBack x := h (name, x) (by simp)
    obtain ⟨-, blanks, -, hblanks, -, hbefore⟩ := before_eq layout (depth + 1)
    have hnew : name ∉ before.map Prod.fst := by
      rw [List.map_append, List.nodup_append] at hn
      exact fun hm => hn.2.2 name hm name (by simp) rfl
    rw [writeMembers, hbefore] at hf
    simp only [List.length_append, List.length_cons] at hf
    have htail : membersTail layout depth ((other, y) :: members) rest =
        ',' :: (blanks ++ (writeText other ++ (':' :: ' ' :: (write layout (depth + 1) y ++
          membersTail layout depth members rest)))) := by
      simp [membersTail, writeMembers, hbefore]
    have hskip : skipSpace (membersTail layout depth ((other, y) :: members) rest) =
        membersTail layout depth ((other, y) :: members) rest := by
      rw [htail]
      exact skipSpace_cons rfl
    have hquote : ∀ behind, skipSpace (writeText other ++ behind) = writeText other ++ behind :=
      fun behind => skipSpace_cons rfl
    rw [readMembers_first hx (hread layout (depth + 1) fuel _ (by omega)) hnew, hskip, htail]
    change readMembers fuel (before ++ [(name, x)]) (skipSpace (blanks ++ _)) = _
    rw [List.append_cons] at hn
    have hothers : readMembers fuel (before ++ [(name, x)]) (writeText other ++ (':' :: ' ' ::
        (write layout (depth + 1) y ++ membersTail layout depth members rest))) =
        .ok (before ++ [(name, x)] ++ (other, y) :: members, rest) :=
      ih (fun z hz => h z (List.mem_cons_of_mem _ hz)) hn (by omega)
    rw [skipSpace_append hblanks, hquote, hothers, ← List.append_cons]

/-! ### Whole documents -/

theorem ReadsBack.str (s : String) : ReadsBack (.str s) := by
  intro layout depth fuel rest hf
  obtain ⟨fuel, rfl⟩ : ∃ k, fuel = k + 1 := ⟨fuel - 1, by simp [write, writeText] at hf; omega⟩
  rw [write, writeText_append, readValue, readText_escaped]
  simp [bind, Except.bind, pure, Except.pure]

theorem ReadsBack.arr {items : List Json} (h : ∀ y ∈ items, y.Textual ∧ ReadsBack y) :
    ReadsBack (.arr items) := by
  intro layout depth fuel rest hf
  cases items with
  | nil =>
    obtain ⟨fuel, rfl⟩ : ∃ k, fuel = k + 1 := ⟨fuel - 1, by simp [write] at hf; omega⟩
    rw [write, List.isEmpty_nil, if_pos rfl]
    rfl
  | cons y items =>
    obtain ⟨blanks, -, hblanks, -, hfirst, -⟩ := before_eq layout (depth + 1)
    have hw : write layout depth (.arr (y :: items)) ++ rest =
        '[' :: (blanks ++ (write layout (depth + 1) y ++ itemsTail layout depth items rest)) := by
      simp [write, writeItems, itemsTail, hfirst]
    have hlength : (write layout (depth + 1) y).length +
        (writeItems layout (depth + 1) false items).length + 2 ≤
          (write layout depth (.arr (y :: items))).length := by
      simp [write, writeItems]
      omega
    obtain ⟨fuel, rfl⟩ : ∃ k, fuel = k + 1 := ⟨fuel - 1, by omega⟩
    -- an empty array is told by its closing bracket, with which no document begins
    have hy : y.Textual := (h y (List.mem_cons_self ..)).1
    obtain ⟨c, cs, hc, hhead⟩ := write_head hy layout (depth + 1)
    have hne : c ≠ ']' := by rcases hhead with rfl | rfl | rfl <;> decide
    have hread : readItems fuel (write layout (depth + 1) y ++
        itemsTail layout depth items rest) = .ok (y :: items, rest) :=
      readItems_write h (by omega)
    have hopen : skipSpace (blanks ++
        (write layout (depth + 1) y ++ itemsTail layout depth items rest)) =
        c :: (cs ++ itemsTail layout depth items rest) := by
      rw [skipSpace_append hblanks, skipSpace_write hy, hc]
      rfl
    rw [hc] at hread
    rw [hw, readValue]
    simp only [hopen]
    split
    · rename_i heq
      exact absurd (List.cons.inj heq).1 hne
    · rw [List.cons_append] at hread
      rw [hread]
      rfl

theorem ReadsBack.obj {members : List (String × Json)} (hn : (members.map Prod.fst).Nodup)
    (h : ∀ m ∈ members, m.2.Textual ∧ ReadsBack m.2) : ReadsBack (.obj members) := by
  intro layout depth fuel rest hf
  cases members with
  | nil =>
    obtain ⟨fuel, rfl⟩ : ∃ k, fuel = k + 1 := ⟨fuel - 1, by simp [write] at hf; omega⟩
    rw [write, List.isEmpty_nil, if_pos rfl]
    rfl
  | cons m members =>
    obtain ⟨name, y⟩ := m
    obtain ⟨blanks, -, hblanks, -, hfirst, -⟩ := before_eq layout (depth + 1)
    have hw : write layout depth (.obj ((name, y) :: members)) ++ rest =
        '\x7b' :: (blanks ++ (writeText name ++ (':' :: ' ' :: (write layout (depth + 1) y ++
          membersTail layout depth members rest)))) := by
      simp [write, writeMembers, membersTail, hfirst]
    have hlength : (write layout (depth + 1) y).length +
        (writeMembers layout (depth + 1) false members).length + 2 ≤
          (write layout depth (.obj ((name, y) :: members))).length := by
      simp [write, writeMembers]
      omega
    obtain ⟨fuel, rfl⟩ : ∃ k, fuel = k + 1 := ⟨fuel - 1, by omega⟩
    have hread : readMembers fuel [] (writeText name ++ (':' :: ' ' ::
        (write layout (depth + 1) y ++ membersTail layout depth members rest))) =
        .ok ((name, y) :: members, rest) := readMembers_write h hn (by omega)
    have hopen : ∀ behind, skipSpace (blanks ++ (writeText name ++ behind)) =
        writeText name ++ behind := by
      intro behind
      rw [skipSpace_append hblanks]
      exact skipSpace_cons rfl
    rw [hw, readValue]
    simp only [hopen]
    split
    · rename_i heq
      exact absurd (List.cons.inj heq).1 (by decide)
    · rw [hread]
      rfl

theorem Textual.readsBack (h : x.Textual) : ReadsBack x := by
  induction h with
  | str s => exact .str s
  | arr hitems ih => exact .arr fun y hy => ⟨hitems y hy, ih y hy⟩
  | obj hn hmembers ih => exact .obj hn fun m hm => ⟨hmembers m hm, ih m hm⟩

/-- A document is read back from its text in any layout. -/
theorem read_text (h : x.Textual) (layout : Layout) : read (x.text layout) = .ok x := by
  obtain ⟨c, cs, hw, hc⟩ := write_head h layout 0
  have hmark : c ≠ Char.ofNat 0xFEFF := by rcases hc with rfl | rfl | rfl <;> decide
  have hvalue := h.readsBack layout 0 (2 * (write layout 0 x).length + 2) [] (by omega)
  rw [List.append_nil] at hvalue
  have hskip : skipSpace (write layout 0 x) = write layout 0 x := by
    simpa using skipSpace_write h layout 0 []
  rw [read, text, String.toList_ofList, readAll, hskip, hvalue, if_neg (by simp [hw, hmark])]
  rfl

theorem text_injective {x y : Json} (hx : x.Textual) (hy : y.Textual) {layout : Layout}
    (h : x.text layout = y.text layout) : x = y := by
  have hread := read_text hx layout
  rw [h, read_text hy layout] at hread
  exact (Except.ok.inj hread).symm

end PathRouting.Json
