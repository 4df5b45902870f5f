import Mathlib.Data.List.Forall2
import Mathlib.Data.List.TakeWhile
import PathRouting.Proofs.Query.Decoding
import PathRouting.Proofs.Query.RoundTrip
import PathRouting.Proofs.Text.Replacement
import PathRouting.Proofs.Value.Merging
import PathRouting.Query.Form

/-!
# Query strings are those of forms

A character is written as its bytes are, and a query string is split where its marks stand. So
what is written and read is what forms write and read, and a mapping of texts is read back.
-/
namespace PathRouting

namespace Text

theorem splitAll_eq_splitOn (c : Char) (s : List Char) : splitAll c s = s.splitOn c := by
  rw [List.splitOn]
  induction s with
  | nil => rfl
  | cons x s ih =>
    rw [List.splitOnP_cons_eq_if_modifyHead, splitAll, ih]
    by_cases hx : x = c
    · rw [if_pos hx, if_pos (beq_iff_eq.mpr hx)]
    · rw [if_neg hx, if_neg (mt beq_iff_eq.mp hx)]
      obtain ⟨part, parts, hparts⟩ :=
        List.exists_cons_of_ne_nil (List.splitOnP_ne_nil (· == c) s)
      rw [hparts]
      rfl

theorem splitFirst_eq (c : Char) (s : List Char) :
    splitFirst c s = (s.takeWhile (· ≠ c), (s.dropWhile (· ≠ c)).tail) := by
  by_cases hc : c ∈ s
  · obtain ⟨before, after, hs, hbefore⟩ := List.eq_append_cons_of_mem hc
    have htake : ∀ x ∈ before, decide (x ≠ c) = true := by
      intro x hx
      exact decide_eq_true fun he => hbefore (he ▸ hx)
    rw [hs, splitFirst_append hbefore, List.takeWhile_append_of_pos htake,
      List.dropWhile_append_of_pos htake, List.takeWhile_cons_of_neg (by simp),
      List.dropWhile_cons_of_neg (by simp), List.append_nil, List.tail_cons]
  · have htake : ∀ x ∈ s, decide (x ≠ c) = true := by
      intro x hx
      exact decide_eq_true fun he => hc (he ▸ hx)
    rw [splitFirst, splitFirst?_of_notMem hc, List.takeWhile_eq_self_iff.mpr htake,
      List.dropWhile_eq_nil_iff.mpr htake]
    rfl

theorem mem_utf8Bytes {c : Char} {b : Nat} (h : b ∈ utf8Bytes c) : b = c.toNat ∨ 128 ≤ b := by
  rw [utf8Bytes] at h
  split_ifs at h <;> simp only [List.mem_cons, List.not_mem_nil, or_false] at h <;> omega

end Text

namespace Query

open Text

/-! ## Writing -/

theorem formByte_eq_escapeByte {b : UInt8} (hu : ¬isUnreserved (Char.ofNat b.toNat) = true)
    (hb : b ≠ 0x20) : formByte b = escapeByte b.toNat := by
  rw [formByte, if_neg hu, if_neg hb, escapeByte]

theorem escapeChar_eq (c : Char) : escapeChar c = (String.utf8EncodeChar c).flatMap formByte := by
  rw [escapeChar]
  split_ifs with hu hblank
  · have hshort : utf8Bytes c = [c.toNat] := by
      rw [utf8Bytes, if_pos (toNat_lt_of_isUnreserved hu)]
    rw [utf8Bytes_eq, List.map_eq_singleton_iff] at hshort
    obtain ⟨b, hbytes, hb⟩ := hshort
    rw [hbytes, List.flatMap_singleton, formByte, hb, Char.ofNat_toNat, if_pos hu]
  · obtain rfl := beq_iff_eq.mp hblank
    rfl
  · rw [utf8Bytes_eq, List.flatMap_map]
    refine List.flatMap_congr fun b hb => ?_
    have hmem : b.toNat ∈ utf8Bytes c := by
      rw [utf8Bytes_eq]
      exact List.mem_map_of_mem hb
    rcases mem_utf8Bytes hmem with hc | hlarge
    · have hcode : Char.ofNat b.toNat = c := by rw [hc, Char.ofNat_toNat]
      refine (formByte_eq_escapeByte (hcode ▸ hu) ?_).symm
      rintro rfl
      exact hblank (beq_iff_eq.mpr hcode.symm)
    · refine (formByte_eq_escapeByte ?_ ?_).symm
      · intro h
        have hvalid : b.toNat.isValidChar := Or.inl (by have := b.toNat_lt; omega)
        have hlt := toNat_lt_of_isUnreserved h
        rw [toNat_ofNat_of_valid hvalid] at hlt
        omega
      · rintro rfl
        exact absurd hlarge (by decide)

theorem escape_eq (s : String) : escape s.toList = formText s := by
  have hbytes : s.toUTF8.data.toList = s.toList.flatMap String.utf8EncodeChar := by
    conv_lhs => rw [← String.ofList_toList (s := s)]
    rw [String.toUTF8_eq_toByteArray, String.toByteArray_ofList, List.utf8Encode,
      List.data_toByteArray]
  rw [formText, hbytes, List.flatMap_assoc, escape]
  exact List.flatMap_congr fun c _ => escapeChar_eq c

theorem writeFields_eq_form (fields : List (String × String)) :
    writeFields fields = form fields := by
  have hfield : writeField = formField := by
    funext field
    rw [writeField, formField, escape_eq, escape_eq]
  rw [writeFields, form, hfield]

theorem mem_writeFields {fields : List (String × String)} {c : Char} (h : c ∈ writeFields fields) :
    isUnreserved c = true ∨ c ∈ ['%', '+', '=', '&'] := by
  by_contra hc
  simp only [List.mem_cons, List.not_mem_nil, or_false, not_or, Bool.not_eq_true] at hc
  obtain ⟨hu, hpercent, hplus, heq, hamp⟩ := hc
  exact notMem_intercalate hamp (notMem_writtenFields hu hplus hpercent heq fields) h

theorem writeFields_eq_nil_iff {fields : List (String × String)} :
    writeFields fields = [] ↔ fields = [] := by
  constructor
  · intro h
    rw [← readFields_writeFields fields, h]
    rfl
  · rintro rfl
    rfl

/-! ## Reading -/

theorem readsText_iff {written : List Char} {text : String} :
    ReadsText written text ↔ String.ofList (unescape written) = text := by
  rw [ReadsText, spells_iff, ← unescape]
  constructor
  · intro h
    rw [h, String.ofList_toList]
  · rintro rfl
    rw [String.toList_ofList]

theorem readsField_iff {piece : List Char} {field : String × String} :
    ReadsField piece field ↔ readField piece = field := by
  rw [ReadsField, readsText_iff, readsText_iff, readField, splitFirst_eq, Prod.ext_iff]

theorem reads_iff {query : List Char} {fields : List (String × String)} :
    Reads query fields ↔ readFields query = fields := by
  have hpieces : (query.splitOn '&').filter (fun piece => decide (piece ≠ [])) =
      (splitAll '&' query).filter fun piece => !piece.isEmpty := by
    rw [splitAll_eq_splitOn]
    refine List.filter_congr fun piece _ => ?_
    cases piece <;> rfl
  have hread : ReadsField = fun piece field => readField piece = field := by
    funext piece field
    exact propext readsField_iff
  rw [Reads, hpieces, hread, ← List.forall₂_map_left_iff, List.forall₂_eq_eq_eq, readFields]

/-! ## Mappings -/

theorem encodeValue_mapping (params : Mapping Value) :
    encodeValue (.mapping params) = .ok (encode params) := by
  cases params <;> rfl

theorem fieldsOf_entries (entries : List (String × Value)) :
    fieldsOf (Mapping.ofTexts id entries) = presentFields entries := by
  rw [fieldsOf, Mapping.ofTexts, List.filterMap_map]
  rfl

theorem names_presentFields (entries : List (String × Value)) :
    ((presentFields entries).map Prod.fst).Sublist (entries.map Prod.fst) := by
  induction entries with
  | nil => exact List.Sublist.refl _
  | cons e entries ih =>
    obtain ⟨name, value⟩ := e
    cases value
    case null => exact ih.cons name
    all_goals exact ih.cons_cons name

theorem presentFields_eq_nil_iff {entries : List (String × Value)} :
    presentFields entries = [] ↔ ∀ e ∈ entries, e.2 = .null := by
  rw [presentFields, List.filterMap_eq_nil_iff]
  refine forall₂_congr fun e _ => ?_
  obtain ⟨name, value⟩ := e
  cases value <;> simp

/-- A mapping of texts is read back from its query string without the absent values. The query
string is written as a form is, and read as one is. -/
theorem decode_encodeValue (entries : List (String × Value))
    (hdistinct : (entries.map Prod.fst).Nodup) :
    (∃ query, encodeValue (.mapping (Mapping.ofTexts id entries)) = .ok query ∧
      decode query = presentFields entries ∧
      (∀ c ∈ query.toList, isUnreserved c = true ∨ c ∈ ['%', '+', '=', '&']) ∧
      (query = "" ↔ ∀ e ∈ entries, e.2 = .null) ∧
      query.toList = form (presentFields entries)) ∧
    ∀ query, ∃ fields, (∀ others, Reads query.toList others ↔ fields = others) ∧
      ((decode query).map Prod.fst).Nodup ∧
      ∀ name, (decode query).lookup name = fields.lookup name := by
  constructor
  · have hfields := fieldsOf_entries entries
    have hnames := (names_presentFields entries).nodup hdistinct
    refine ⟨_, encodeValue_mapping _, ?_, ?_, ?_, ?_⟩
    · rw [decode_encode, hfields]
      rw [hfields]
      exact hnames
    · intro c hc
      rw [encode, String.toList_ofList] at hc
      exact mem_writeFields hc
    · rw [encode, hfields, ← presentFields_eq_nil_iff, ← writeFields_eq_nil_iff,
        ← String.toList_eq_nil_iff, String.toList_ofList]
    · rw [encode, hfields, String.toList_ofList, writeFields_eq_form]
  · intro query
    exact ⟨readFields query.toList, fun _ => reads_iff, nodup_decode query, lookup_decode query⟩

theorem decode_encodeValue_reserved : (["", "a?b", "é", "y"] : List String).Nodup ∧
    ∃ query, encodeValue (.mapping [(.str "", .str "é &=+%"), (.str "a?b", .null),
        (.str "é", .int (-5)), (.str "y", .str "")]) = .ok query ∧
      decode query = [("", "é &=+%"), ("é", "-5"), ("y", "")] ∧ '?' ∉ query.toList := by
  have hdistinct : (["", "a?b", "é", "y"] : List String).Nodup := by decide
  obtain ⟨⟨query, hquery, hdecode, hmem, -⟩, -⟩ := decode_encodeValue
    [("", .str "é &=+%"), ("a?b", .null), ("é", .int (-5)), ("y", .str "")] hdistinct
  refine ⟨hdistinct, query, hquery, hdecode.trans rfl, fun h => ?_⟩
  exact absurd (hmem _ h) (by decide)

end Query

end PathRouting
