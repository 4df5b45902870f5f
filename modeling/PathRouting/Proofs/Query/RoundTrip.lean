import PathRouting.Proofs.Text.Splitting
import PathRouting.Proofs.Text.Utf8
import PathRouting.Query.Codec

/-!
# Query strings are read back

An escape has only unreserved characters, plus and percent signs in it, so the characters that
separate fields and names stand where they were written.
-/
namespace PathRouting

namespace Text

variable {c : Char} {before after : List Char}

theorem splitFirst_append (h : c ∉ before) :
    splitFirst c (before ++ c :: after) = (before, after) := by
  rw [splitFirst, splitFirst?_append h]
  rfl

theorem splitAll_of_notMem (h : c ∉ before) : splitAll c before = [before] := by
  induction before with
  | nil => rfl
  | cons x before ih =>
    rw [List.mem_cons, not_or] at h
    rw [splitAll, if_neg (Ne.symm h.1), ih h.2]

theorem splitAll_append (h : c ∉ before) :
    splitAll c (before ++ c :: after) = before :: splitAll c after := by
  induction before with
  | nil => rw [List.nil_append, splitAll, if_pos rfl]
  | cons x before ih =>
    rw [List.mem_cons, not_or] at h
    rw [List.cons_append, splitAll, if_neg (Ne.symm h.1), ih h.2]

theorem splitAll_intercalate {part : List Char} {parts : List (List Char)}
    (h : ∀ p ∈ part :: parts, c ∉ p) :
    splitAll c ([c].intercalate (part :: parts)) = part :: parts := by
  induction parts generalizing part with
  | nil =>
    rw [List.intercalate_singleton]
    exact splitAll_of_notMem (h part (List.mem_cons_self ..))
  | cons next parts ih =>
    rw [List.intercalate_cons_cons, ← List.append_cons,
      splitAll_append (h part (List.mem_cons_self ..)),
      ih fun p hp => h p (List.mem_cons_of_mem _ hp)]

theorem notMem_intercalate {x : Char} {parts : List (List Char)} (hx : x ≠ c)
    (h : ∀ p ∈ parts, x ∉ p) : x ∉ [c].intercalate parts := by
  induction parts with
  | nil => exact List.not_mem_nil
  | cons part parts ih =>
    have hpart := h part (List.mem_cons_self ..)
    cases parts with
    | nil =>
      rw [List.intercalate_singleton]
      exact hpart
    | cons next parts =>
      rw [List.intercalate_cons_cons, ← List.append_cons, List.mem_append, List.mem_cons, not_or,
        not_or]
      exact ⟨hpart, hx, ih fun p hp => h p (List.mem_cons_of_mem _ hp)⟩

theorem hexDigit_upperHexDigit : ∀ n < 16, hexDigit? (upperHexDigit n) = some n := by decide

end Text

namespace Query

open Text

theorem toNat_lt_of_isUnreserved {c : Char} (h : isUnreserved c = true) : c.toNat < 128 := by
  simp only [isUnreserved, Bool.or_eq_true, Bool.and_eq_true, decide_eq_true_eq, beq_iff_eq] at h
  obtain (((((⟨-, h⟩ | ⟨-, h⟩) | ⟨-, h⟩) | rfl) | rfl) | rfl) | rfl := h
  · exact Nat.lt_of_le_of_lt h (by decide)
  · exact Nat.lt_of_le_of_lt h (by decide)
  · exact Nat.lt_of_le_of_lt h (by decide)
  all_goals decide

theorem units_cons_of_ne {c : Char} (h : c ≠ '%') (rest : List Char) :
    units (c :: rest) = plainUnit c :: units rest := by
  rw [units]
  rintro _ _ _ rfl
  exact absurd rfl h

theorem units_escapeByte {b : Nat} (h : b < 256) (rest : List Char) :
    units (escapeByte b ++ rest) = .byte b :: units rest := by
  have hb : 16 * (b / 16) + b % 16 = b := Nat.div_add_mod b 16
  simp only [escapeByte, List.cons_append, List.nil_append, units,
    hexDigit_upperHexDigit (b / 16) (by omega), hexDigit_upperHexDigit (b % 16) (by omega), hb]

theorem units_escapeBytes {bytes : List Nat} (h : ∀ b ∈ bytes, b < 256) (rest : List Char) :
    units (bytes.flatMap escapeByte ++ rest) = bytes.map .byte ++ units rest := by
  induction bytes with
  | nil => rfl
  | cons b bytes ih =>
    rw [List.flatMap_cons, List.append_assoc, units_escapeByte (h b (List.mem_cons_self ..)),
      ih fun x hx => h x (List.mem_cons_of_mem _ hx)]
    rfl

theorem readUnits_escapeChar (c : Char) (rest : List Char) :
    readUnits .idle (units (escapeChar c ++ rest)) = c :: readUnits .idle (units rest) := by
  rw [escapeChar]
  split_ifs with hu hb
  · have hlt := toNat_lt_of_isUnreserved hu
    have hpercent : c ≠ '%' := by
      rintro rfl
      exact absurd hu (by decide)
    have hplus : ¬(c == '+') = true := by
      rw [beq_iff_eq]
      rintro rfl
      exact absurd hu (by decide)
    rw [List.singleton_append, units_cons_of_ne hpercent, plainUnit, if_neg hplus, if_pos hlt,
      readUnits_ascii hlt, Char.ofNat_toNat]
  · obtain rfl := beq_iff_eq.mp hb
    rw [List.singleton_append, units_cons_of_ne (by decide), plainUnit,
      if_pos (by decide), readUnits_ascii (by decide)]
  · rw [units_escapeBytes fun b hb => utf8Bytes_lt hb, readUnits_utf8Bytes]

theorem unescape_escape (s : List Char) : unescape (escape s) = s := by
  rw [unescape]
  induction s with
  | nil => rfl
  | cons c s ih =>
    rw [escape, List.flatMap_cons, readUnits_escapeChar]
    exact congrArg (c :: ·) ih

theorem isUnreserved_upperHexDigit : ∀ n < 16, isUnreserved (upperHexDigit n) = true := by decide

theorem mem_escape {s : List Char} {x : Char} (h : x ∈ escape s) :
    isUnreserved x = true ∨ x = '+' ∨ x = '%' := by
  obtain ⟨c, -, hx⟩ := List.mem_flatMap.mp h
  rw [escapeChar] at hx
  split_ifs at hx with hu hb
  · rw [List.mem_singleton.mp hx]
    exact .inl hu
  · exact .inr (.inl (List.mem_singleton.mp hx))
  · obtain ⟨b, hb, hx⟩ := List.mem_flatMap.mp hx
    have hlt := utf8Bytes_lt hb
    simp only [escapeByte, List.mem_cons, List.not_mem_nil, or_false] at hx
    rcases hx with rfl | rfl | rfl
    · exact .inr (.inr rfl)
    · exact .inl (isUnreserved_upperHexDigit _ (by omega))
    · exact .inl (isUnreserved_upperHexDigit _ (by omega))

theorem notMem_escape {x : Char} (hu : isUnreserved x = false) (hp : x ≠ '+') (hq : x ≠ '%')
    (s : List Char) : x ∉ escape s := by
  intro h
  rcases mem_escape h with h | h | h
  · rw [hu] at h
    cases h
  · exact hp h
  · exact hq h

theorem notMem_writtenFields {x : Char} (hu : isUnreserved x = false) (hp : x ≠ '+')
    (hq : x ≠ '%') (he : x ≠ '=') (fields : List (String × String)) :
    ∀ part ∈ fields.map writeField, x ∉ part := by
  intro part hpart
  obtain ⟨field, -, rfl⟩ := List.mem_map.mp hpart
  rw [writeField, List.mem_append, List.mem_cons, not_or, not_or]
  exact ⟨notMem_escape hu hp hq _, he, notMem_escape hu hp hq _⟩

theorem readField_writeField (field : String × String) : readField (writeField field) = field := by
  have hn : '=' ∉ escape field.1.toList := notMem_escape (by decide) (by decide) (by decide) _
  rw [readField, writeField, splitFirst_append hn]
  dsimp only
  rw [unescape_escape, unescape_escape, String.ofList_toList, String.ofList_toList]

theorem writeField_ne_nil (field : String × String) : writeField field ≠ [] := by
  simp [writeField]

theorem readFields_writeFields (fields : List (String × String)) :
    readFields (writeFields fields) = fields := by
  cases fields with
  | nil => rfl
  | cons field fields =>
    have hsep : ∀ part ∈ (field :: fields).map writeField, '&' ∉ part :=
      notMem_writtenFields (by decide) (by decide) (by decide) (by decide) _
    have hfilter : ((field :: fields).map writeField).filter (fun part => !part.isEmpty) =
        (field :: fields).map writeField := by
      rw [List.filter_eq_self]
      intro part hp
      obtain ⟨f, -, rfl⟩ := List.mem_map.mp hp
      simp [writeField_ne_nil f]
    have hread : readField ∘ writeField = id := funext readField_writeField
    rw [readFields, writeFields, List.map_cons, splitAll_intercalate hsep, ← List.map_cons,
      hfilter, List.map_map, hread, List.map_id]

theorem keepFirst_of_nodup {kept fields : List (String × String)}
    (h : ((kept ++ fields).map Prod.fst).Nodup) : keepFirst kept fields = kept ++ fields := by
  induction fields generalizing kept with
  | nil => simp [keepFirst]
  | cons field fields ih =>
    obtain ⟨name, value⟩ := field
    have hnew : ¬kept.any (fun e => e.1 == name) = true := by
      rw [List.any_eq_true]
      rintro ⟨e, he, hname⟩
      rw [List.map_append, List.nodup_append] at h
      exact h.2.2 e.1 (List.mem_map_of_mem he) name (List.mem_cons_self ..) (beq_iff_eq.mp hname)
    rw [List.append_cons] at h
    rw [keepFirst, if_neg hnew, ih h, ← List.append_cons]

theorem decode_encode {params : Mapping Value}
    (h : ((fieldsOf params).map Prod.fst).Nodup) : decode (encode params) = fieldsOf params := by
  rw [decode, encode, String.toList_ofList, readFields_writeFields]
  exact keepFirst_of_nodup h

theorem newline_notMem_encode (params : Mapping Value) : '\n' ∉ (encode params).toList := by
  rw [encode, String.toList_ofList, writeFields]
  exact notMem_intercalate (by decide)
    (notMem_writtenFields (by decide) (by decide) (by decide) (by decide) _)

end Query

end PathRouting
