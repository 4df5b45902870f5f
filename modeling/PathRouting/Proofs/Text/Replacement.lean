import PathRouting.Proofs.Text.Utf8
import PathRouting.Text.Replacement

/-!
# Reading bytes that form no characters

What is pending tells exactly which bytes may follow those that were read. So reading stops at the
end of the longest beginning of a character, and every sequence of bytes spells what is read.
-/
namespace PathRouting.Text

theorem utf8Bytes_eq (c : Char) : utf8Bytes c = (String.utf8EncodeChar c).map UInt8.toNat := by
  have hv := toNat_valid c
  have hn : c.val.toNat = c.toNat := rfl
  simp only [utf8Bytes, String.utf8EncodeChar, hn]
  generalize c.toNat = n at hv
  split_ifs <;> simp [UInt8.toNat_ofNat'] <;> omega

theorem utf8Bytes_ne_nil (c : Char) : utf8Bytes c ≠ [] := by
  rw [utf8Bytes]
  split_ifs <;> exact List.cons_ne_nil _ _

/-! ## Characters by their codes -/

variable {n : Nat}

theorem toNat_ofNat_of_valid (h : n.isValidChar) : (Char.ofNat n).toNat = n := by
  rw [Char.ofNat, dif_pos h]
  rfl

theorem utf8Bytes_two (hl : 0x80 ≤ n) (hm : n < 0x800) :
    utf8Bytes (Char.ofNat n) = [0xC0 + n / 64, 0x80 + n % 64] := by
  have hvalid : n.isValidChar := Or.inl (by omega)
  rw [utf8Bytes, toNat_ofNat_of_valid hvalid, if_neg (by omega), if_pos hm]

theorem utf8Bytes_three (hv : n.isValidChar) (hl : 0x800 ≤ n) (hm : n < 0x10000) :
    utf8Bytes (Char.ofNat n) = [0xE0 + n / 4096, 0x80 + n / 64 % 64, 0x80 + n % 64] := by
  rw [utf8Bytes, toNat_ofNat_of_valid hv, if_neg (by omega), if_neg (by omega), if_pos hm]

theorem utf8Bytes_four (hl : 0x10000 ≤ n) (hm : n < 0x110000) : utf8Bytes (Char.ofNat n) =
    [0xF0 + n / 262144, 0x80 + n / 4096 % 64, 0x80 + n / 64 % 64, 0x80 + n % 64] := by
  have hvalid : n.isValidChar := Or.inr ⟨by omega, hm⟩
  rw [utf8Bytes, toNat_ofNat_of_valid hvalid, if_neg (by omega), if_neg (by omega),
    if_neg (by omega)]

/-! ## What is pending -/

/-- After these bytes something is pending, and a byte that it accepts goes on with a character. -/
structure Pends (bytes : List Nat) (p : Pending) : Prop where
  missing : p.missing ≠ 0
  reads : ∀ rest, readUnits .idle (bytes.map .byte ++ rest) = readUnits p rest
  goes : ∀ b, p.accepts b = true → ∃ c more, utf8Bytes c = bytes ++ b :: more

theorem accepts_eq_true_iff {bits missing least most b : Nat} :
    Pending.accepts ⟨bits, missing + 1, least, most⟩ b = true ↔ least ≤ b ∧ b ≤ most := by
  simp [Pending.accepts]

theorem pends_two (hl : 0x80 ≤ n) (hm : n < 0x800) :
    Pends [0xC0 + n / 64] ⟨n / 64, 1, 0x80, 0xBF⟩ := by
  refine ⟨by simp, fun rest => readUnits_first (firstByte_two hl hm) rest, fun b hb => ?_⟩
  obtain ⟨hleast, hmost⟩ := accepts_eq_true_iff.mp hb
  refine ⟨Char.ofNat (n / 64 * 64 + (b - 0x80)), [], ?_⟩
  rw [utf8Bytes_two (by omega) (by omega)]
  simp only [List.cons_append, List.nil_append, List.cons.injEq, and_true]
  omega

theorem pends_three (hv : n.isValidChar) (hl : 0x800 ≤ n) (hm : n < 0x10000) :
    (∃ p, Pends [0xE0 + n / 4096] p) ∧
      ∃ p, Pends [0xE0 + n / 4096, 0x80 + n / 64 % 64] p := by
  have hleast : (if n / 4096 = 0 then 0xA0 else 0x80) ≤ 0x80 + n / 64 % 64 := by
    split_ifs <;> omega
  have hmost : 0x80 + n / 64 % 64 ≤ if n / 4096 = 13 then 0x9F else 0xBF := by
    split_ifs <;> omega
  constructor
  · refine ⟨_, by simp, fun rest => readUnits_first (firstByte_three hm) rest, fun b hb => ?_⟩
    obtain ⟨hb, hb'⟩ := accepts_eq_true_iff.mp hb
    refine ⟨Char.ofNat (n / 4096 * 4096 + (b - 0x80) * 64), [0x80], ?_⟩
    rw [utf8Bytes_three (by split_ifs at hb' <;> omega) (by split_ifs at hb <;> omega)
      (by split_ifs at hb' <;> omega)]
    simp only [List.cons_append, List.nil_append, List.cons.injEq, and_true]
    split_ifs at hb hb' <;> omega
  · refine ⟨⟨n / 4096 * 64 + (0x80 + n / 64 % 64 - 0x80), 1, 0x80, 0xBF⟩, by simp,
      fun rest => ?_, fun b hb => ?_⟩
    · exact (readUnits_first (firstByte_three hm) _).trans (readUnits_continue hleast hmost rest)
    · obtain ⟨hb, hb'⟩ := accepts_eq_true_iff.mp hb
      refine ⟨Char.ofNat (n / 64 * 64 + (b - 0x80)), [], ?_⟩
      rw [utf8Bytes_three (by omega) (by omega) (by omega)]
      simp only [List.cons_append, List.nil_append, List.cons.injEq, and_true]
      omega

theorem pends_four (hl : 0x10000 ≤ n) (hm : n < 0x110000) :
    (∃ p, Pends [0xF0 + n / 262144] p) ∧
      (∃ p, Pends [0xF0 + n / 262144, 0x80 + n / 4096 % 64] p) ∧
      ∃ p, Pends [0xF0 + n / 262144, 0x80 + n / 4096 % 64, 0x80 + n / 64 % 64] p := by
  have hleast : (if n / 262144 = 0 then 0x90 else 0x80) ≤ 0x80 + n / 4096 % 64 := by
    split_ifs <;> omega
  have hmost : 0x80 + n / 4096 % 64 ≤ if n / 262144 = 4 then 0x8F else 0xBF := by
    split_ifs <;> omega
  have hsecond : ∀ rest, readUnits .idle
      ([0xF0 + n / 262144, 0x80 + n / 4096 % 64].map .byte ++ rest) =
        readUnits ⟨n / 262144 * 64 + (0x80 + n / 4096 % 64 - 0x80), 2, 0x80, 0xBF⟩ rest :=
    fun rest =>
      (readUnits_first (firstByte_four hm) _).trans (readUnits_continue hleast hmost rest)
  refine ⟨?_, ?_, ?_⟩
  · refine ⟨_, by simp, fun rest => readUnits_first (firstByte_four hm) rest, fun b hb => ?_⟩
    obtain ⟨hb, hb'⟩ := accepts_eq_true_iff.mp hb
    refine ⟨Char.ofNat ((n / 262144 * 64 + (b - 0x80)) * 4096), [0x80, 0x80], ?_⟩
    rw [utf8Bytes_four (by split_ifs at hb <;> omega) (by split_ifs at hb' <;> omega)]
    simp only [List.cons_append, List.nil_append, List.cons.injEq, and_true]
    split_ifs at hb hb' <;> omega
  · refine ⟨_, by simp, hsecond, fun b hb => ?_⟩
    obtain ⟨hb, hb'⟩ := accepts_eq_true_iff.mp hb
    refine ⟨Char.ofNat ((n / 4096 * 64 + (b - 0x80)) * 64), [0x80], ?_⟩
    rw [utf8Bytes_four (by omega) (by omega)]
    simp only [List.cons_append, List.nil_append, List.cons.injEq, and_true]
    omega
  · refine ⟨⟨(n / 262144 * 64 + (0x80 + n / 4096 % 64 - 0x80)) * 64 +
      (0x80 + n / 64 % 64 - 0x80), 1, 0x80, 0xBF⟩, by simp, fun rest => ?_, fun b hb => ?_⟩
    · exact (hsecond _).trans (readUnits_continue (by omega) (by omega) rest)
    · obtain ⟨hb, hb'⟩ := accepts_eq_true_iff.mp hb
      refine ⟨Char.ofNat (n / 64 * 64 + (b - 0x80)), [], ?_⟩
      rw [utf8Bytes_four (by omega) (by omega)]
      simp only [List.cons_append, List.nil_append, List.cons.injEq, and_true]
      omega

theorem pends_of_begins {bytes : List Nat} (h : Begins bytes) (hne : bytes ≠ []) :
    ∃ p, Pends bytes p := by
  obtain ⟨c, rest, hrest, hbytes⟩ := h
  have hv := toNat_valid c
  obtain ⟨first, bytes, rfl⟩ := List.exists_cons_of_ne_nil hne
  rw [utf8Bytes] at hbytes
  generalize c.toNat = n at hv hbytes
  split_ifs at hbytes with h1 h2 h3
  · simp_all
  · obtain ⟨rfl, htail⟩ := List.cons.inj hbytes
    rcases bytes with _ | ⟨second, bytes⟩
    · exact ⟨_, pends_two (by omega) h2⟩
    · simp_all
  · have hpends := pends_three hv (by omega) h3
    obtain ⟨rfl, htail⟩ := List.cons.inj hbytes
    rcases bytes with _ | ⟨second, _ | ⟨third, bytes⟩⟩
    · exact hpends.1
    · obtain ⟨hsecond, -⟩ := List.cons.inj htail
      exact hsecond ▸ hpends.2
    · simp_all
  · have hpends := pends_four (n := n) (by omega) (by omega)
    obtain ⟨rfl, htail⟩ := List.cons.inj hbytes
    rcases bytes with _ | ⟨second, _ | ⟨third, _ | ⟨fourth, bytes⟩⟩⟩
    · exact hpends.1
    · obtain ⟨hsecond, -⟩ := List.cons.inj htail
      exact hsecond ▸ hpends.2.1
    · obtain ⟨hsecond, htail⟩ := List.cons.inj htail
      obtain ⟨hthird, -⟩ := List.cons.inj htail
      exact hsecond ▸ hthird ▸ hpends.2.2
    · simp_all

theorem firstByte_stray {b : Nat} (hb : ¬Begins [b]) (hc : ∀ c, utf8Bytes c ≠ [b]) :
    firstByte b = ([replacement], .idle) := by
  have hshort : ¬b < 0x80 := by
    intro h
    refine hc (Char.ofNat b) ?_
    rw [utf8Bytes, toNat_ofNat_of_valid (Or.inl (by omega)), if_pos h]
  have htwo : ¬(0xC2 ≤ b ∧ b < 0xE0) := by
    rintro ⟨hl, hm⟩
    refine hb ⟨Char.ofNat ((b - 0xC0) * 64), [0x80], by simp, ?_⟩
    rw [utf8Bytes_two (by omega) (by omega)]
    simp only [List.cons_append, List.nil_append, List.cons.injEq, and_true]
    omega
  have hthree : ¬(0xE0 ≤ b ∧ b < 0xF0) := by
    rintro ⟨hl, hm⟩
    refine hb ⟨Char.ofNat (if b = 0xE0 then 0x800 else (b - 0xE0) * 4096),
      [if b = 0xE0 then 0xA0 else 0x80, 0x80], by simp, ?_⟩
    rw [utf8Bytes_three (by split_ifs <;> omega) (by split_ifs <;> omega)
      (by split_ifs <;> omega)]
    simp only [List.cons_append, List.nil_append, List.cons.injEq, and_true]
    split_ifs <;> omega
  have hfour : ¬(0xF0 ≤ b ∧ b < 0xF5) := by
    rintro ⟨hl, hm⟩
    refine hb ⟨Char.ofNat (if b = 0xF0 then 0x10000 else (b - 0xF0) * 262144),
      [if b = 0xF0 then 0x90 else 0x80, 0x80, 0x80], by simp, ?_⟩
    rw [utf8Bytes_four (by split_ifs <;> omega) (by split_ifs <;> omega)]
    simp only [List.cons_append, List.nil_append, List.cons.injEq, and_true]
    split_ifs <;> omega
  rw [firstByte, if_neg hshort]
  split_ifs <;> first | rfl | omega

/-! ## Broken bytes -/

theorem readUnits_cut {p : Pending} (hp : p.missing ≠ 0) {rest : List ByteOrChar}
    (h : ∀ b more, rest = .byte b :: more → p.accepts b = false) :
    readUnits p rest = replacement :: readUnits .idle rest := by
  have hcut : p.cut = [replacement] := by rw [Pending.cut, if_neg hp]
  cases rest with
  | nil => rw [readUnits, hcut]; rfl
  | cons unit more =>
    cases unit with
    | whole c => rw [readUnits, hcut]; rfl
    | byte b =>
      have hidle : Pending.idle.next b = firstByte b := by
        rw [Pending.next, if_neg (by simp [Pending.accepts, Pending.idle])]
        rfl
      rw [readUnits, readUnits, hidle, Pending.next, if_neg (by simp [h b more rfl]), hcut]
      rfl

theorem readUnits_broken {bytes : List Nat} {rest : List ByteOrChar} (h : Broken bytes rest) :
    readUnits .idle (bytes.map .byte ++ rest) = replacement :: readUnits .idle rest := by
  by_cases hb : Begins bytes
  · obtain ⟨p, hp⟩ := pends_of_begins hb h.nonempty
    rw [hp.reads]
    refine readUnits_cut hp.missing fun b more hrest => ?_
    rw [Bool.eq_false_iff]
    intro ha
    obtain ⟨c, left, hc⟩ := hp.goes b ha
    -- the byte would end a character, or go on with one
    by_cases hleft : left = []
    · refine h.incomplete c more ?_
      rw [hc, hleft, hrest]
      simp
    · exact h.longest b more hrest ⟨c, left, hleft, by simpa using hc⟩
  · obtain ⟨b, rfl⟩ := List.length_eq_one_iff.mp (h.started.resolve_right hb)
    have hstray : firstByte b = ([replacement], .idle) := by
      refine firstByte_stray hb fun c hc => h.incomplete c rest ?_
      rw [hc]
    have hnext : Pending.idle.next b = ([replacement], .idle) := by
      rw [Pending.next, if_neg (by simp [Pending.accepts, Pending.idle]), hstray]
      rfl
    rw [List.map_singleton, List.singleton_append, readUnits, hnext]
    rfl

theorem Spells.readUnits_eq {units : List ByteOrChar} {text : List Char} (h : Spells units text) :
    readUnits .idle units = text := by
  induction h with
  | nil => rfl
  | whole c _ ih => rw [readUnits, ih]; rfl
  | char c _ ih => rw [readUnits_utf8Bytes, ih]
  | broken hb _ ih => rw [readUnits_broken hb, ih]

theorem exists_broken {bytes : List Nat} (hb : Begins bytes) (hne : bytes ≠ [])
    {rest : List ByteOrChar}
    (hc : ∀ c more, bytes.map .byte ++ rest ≠ (utf8Bytes c).map .byte ++ more) :
    ∃ bytes' rest', bytes.map .byte ++ rest = bytes'.map .byte ++ rest' ∧ Broken bytes' rest' := by
  induction rest generalizing bytes with
  | nil => exact ⟨bytes, [], rfl, hne, .inr hb, nofun, hc⟩
  | cons unit rest ih =>
    by_cases hgoes : ∃ b, unit = .byte b ∧ Begins (bytes ++ [b])
    · obtain ⟨b, rfl, hlonger⟩ := hgoes
      have heq : bytes.map ByteOrChar.byte ++ .byte b :: rest =
          (bytes ++ [b]).map .byte ++ rest := by simp
      obtain ⟨bytes', rest', he, hbroken⟩ := ih hlonger (by simp) (heq ▸ hc)
      exact ⟨bytes', rest', heq.trans he, hbroken⟩
    · refine ⟨bytes, unit :: rest, rfl, hne, .inr hb, ?_, hc⟩
      intro b more hrest hlonger
      exact hgoes ⟨b, (List.cons.inj hrest).1, hlonger⟩

theorem exists_spells (units : List ByteOrChar) : ∃ text, Spells units text := by
  induction hn : units.length using Nat.strongRecOn generalizing units with
  | ind n ih =>
    subst hn
    have hrest : ∀ {bytes rest}, bytes ≠ [] → units = bytes.map ByteOrChar.byte ++ rest →
        ∃ text, Spells rest text := by
      rintro bytes rest hne rfl
      have hlength := List.length_pos_iff.mpr hne
      exact ih _ (by simp; omega) rest rfl
    by_cases hc : ∃ c more, units = (utf8Bytes c).map .byte ++ more
    · obtain ⟨c, more, he⟩ := hc
      obtain ⟨text, htext⟩ := hrest (utf8Bytes_ne_nil c) he
      exact ⟨c :: text, he ▸ .char c htext⟩
    · cases units with
      | nil => exact ⟨[], .nil⟩
      | cons unit rest =>
        cases unit with
        | whole c =>
          obtain ⟨text, htext⟩ := ih rest.length (by simp) rest rfl
          exact ⟨c :: text, .whole c htext⟩
        | byte b =>
          have hnone : ∀ c more, [b].map .byte ++ rest ≠ (utf8Bytes c).map .byte ++ more :=
            fun c more he => hc ⟨c, more, he⟩
          have hbroken : ∃ bytes' rest', [b].map .byte ++ rest = bytes'.map .byte ++ rest' ∧
              Broken bytes' rest' := by
            by_cases hb : Begins [b]
            · exact exists_broken hb (by simp) hnone
            · refine ⟨[b], rest, rfl, by simp, .inl rfl, ?_, hnone⟩
              rintro next more - ⟨c, left, -, he⟩
              exact hb ⟨c, next :: left, by simp, by simpa using he⟩
          obtain ⟨bytes', rest', he, hb⟩ := hbroken
          obtain ⟨text, htext⟩ := hrest hb.nonempty he
          have hspells : Spells ([b].map .byte ++ rest) (replacement :: text) :=
            he ▸ .broken hb htext
          exact ⟨replacement :: text, hspells⟩

/-- Reading bytes gives the one text that they spell. -/
theorem spells_iff {units : List ByteOrChar} {text : List Char} :
    Spells units text ↔ readUnits .idle units = text := by
  constructor
  · exact Spells.readUnits_eq
  · rintro rfl
    obtain ⟨text, htext⟩ := exists_spells units
    exact htext.readUnits_eq ▸ htext

end PathRouting.Text
