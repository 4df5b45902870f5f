import Mathlib.Tactic.SplitIfs
import PathRouting.Text.Utf8

/-!
# Bytes of characters are read back

A character's first byte tells how many bytes are missing. Each of these lies within the bounds
that are then pending and adds six bits.
-/
namespace PathRouting.Text

theorem readUnits_first {b : Nat} {p : Pending} (h : firstByte b = ([], p))
    (rest : List ByteOrChar) : readUnits .idle (.byte b :: rest) = readUnits p rest := by
  have hn : Pending.idle.next b = ([], p) := by
    rw [Pending.next, if_neg (by simp [Pending.accepts, Pending.idle]), h]
    rfl
  rw [readUnits, hn]
  rfl

theorem readUnits_continue {b bits missing least most : Nat} (hl : least ≤ b) (hm : b ≤ most)
    (rest : List ByteOrChar) :
    readUnits ⟨bits, missing + 2, least, most⟩ (.byte b :: rest) =
      readUnits ⟨bits * 64 + (b - 0x80), missing + 1, 0x80, 0xBF⟩ rest := by
  have hn : Pending.next ⟨bits, missing + 2, least, most⟩ b =
      ([], ⟨bits * 64 + (b - 0x80), missing + 1, 0x80, 0xBF⟩) := by
    rw [Pending.next, if_pos (by simp [Pending.accepts, hl, hm]), Pending.continue,
      if_neg (by simp)]
    rfl
  rw [readUnits, hn]
  rfl

theorem readUnits_last {b bits least most : Nat} (hl : least ≤ b) (hm : b ≤ most)
    (rest : List ByteOrChar) : readUnits ⟨bits, 1, least, most⟩ (.byte b :: rest) =
      Char.ofNat (bits * 64 + (b - 0x80)) :: readUnits .idle rest := by
  have hn : Pending.next ⟨bits, 1, least, most⟩ b =
      ([Char.ofNat (bits * 64 + (b - 0x80))], .idle) := by
    rw [Pending.next, if_pos (by simp [Pending.accepts, hl, hm]), Pending.continue, if_pos rfl]
  rw [readUnits, hn]
  rfl

theorem readUnits_ascii {b : Nat} (h : b < 0x80) (rest : List ByteOrChar) :
    readUnits .idle (.byte b :: rest) = Char.ofNat b :: readUnits .idle rest := by
  have hn : Pending.idle.next b = ([Char.ofNat b], .idle) := by
    rw [Pending.next, if_neg (by simp [Pending.accepts, Pending.idle]), firstByte, if_pos h]
    rfl
  rw [readUnits, hn]
  rfl

theorem toNat_valid (c : Char) : c.toNat < 0xD800 ∨ 0xDFFF < c.toNat ∧ c.toNat < 0x110000 :=
  c.valid

theorem utf8Bytes_lt {c : Char} {b : Nat} (h : b ∈ utf8Bytes c) : b < 256 := by
  have hc := toNat_valid c
  rw [utf8Bytes] at h
  split_ifs at h <;> simp only [List.mem_cons, List.not_mem_nil, or_false] at h <;> omega

theorem firstByte_two {n : Nat} (hl : 0x80 ≤ n) (hm : n < 0x800) :
    firstByte (0xC0 + n / 64) = ([], ⟨n / 64, 1, 0x80, 0xBF⟩) := by
  rw [firstByte, if_neg (by omega), if_neg (by omega), if_pos (by omega), Nat.add_sub_cancel_left]

theorem firstByte_three {n : Nat} (hm : n < 0x10000) :
    firstByte (0xE0 + n / 4096) = ([], ⟨n / 4096, 2, if n / 4096 = 0 then 0xA0 else 0x80,
      if n / 4096 = 13 then 0x9F else 0xBF⟩) := by
  have hzero : 0xE0 + n / 4096 = 0xE0 ↔ n / 4096 = 0 := by omega
  have hlast : 0xE0 + n / 4096 = 0xED ↔ n / 4096 = 13 := by omega
  rw [firstByte, if_neg (by omega), if_neg (by omega), if_neg (by omega), if_pos (by omega),
    Nat.add_sub_cancel_left]
  simp only [hzero, hlast]

theorem firstByte_four {n : Nat} (hm : n < 0x110000) :
    firstByte (0xF0 + n / 262144) = ([], ⟨n / 262144, 3, if n / 262144 = 0 then 0x90 else 0x80,
      if n / 262144 = 4 then 0x8F else 0xBF⟩) := by
  have hzero : 0xF0 + n / 262144 = 0xF0 ↔ n / 262144 = 0 := by omega
  have hlast : 0xF0 + n / 262144 = 0xF4 ↔ n / 262144 = 4 := by omega
  rw [firstByte, if_neg (by omega), if_neg (by omega), if_neg (by omega), if_neg (by omega),
    if_pos (by omega), Nat.add_sub_cancel_left]
  simp only [hzero, hlast]

/-- The codes that belong to no character are those that the bounds on the second byte keep
out. -/
theorem readUnits_utf8Bytes (c : Char) (rest : List ByteOrChar) :
    readUnits .idle ((utf8Bytes c).map .byte ++ rest) = c :: readUnits .idle rest := by
  have hv := toNat_valid c
  obtain ⟨n, hn⟩ : ∃ n, n = c.toNat := ⟨_, rfl⟩
  have hc : Char.ofNat n = c := by rw [hn, Char.ofNat_toNat]
  rw [← hn] at hv
  rw [utf8Bytes, ← hn]
  split_ifs with h1 h2 h3
  · rw [List.map_singleton, List.singleton_append, readUnits_ascii h1, hc]
  · have hbits : n / 64 * 64 + (0x80 + n % 64 - 0x80) = n := by omega
    simp only [List.map_cons, List.map_nil, List.cons_append, List.nil_append]
    rw [readUnits_first (firstByte_two (by omega) h2), readUnits_last (by omega) (by omega),
      hbits, hc]
  · have hbits : (n / 4096 * 64 + (0x80 + n / 64 % 64 - 0x80)) * 64 + (0x80 + n % 64 - 0x80) =
        n := by omega
    have hleast : (if n / 4096 = 0 then 0xA0 else 0x80) ≤ 0x80 + n / 64 % 64 := by
      split_ifs <;> omega
    have hmost : 0x80 + n / 64 % 64 ≤ if n / 4096 = 13 then 0x9F else 0xBF := by
      split_ifs <;> omega
    simp only [List.map_cons, List.map_nil, List.cons_append, List.nil_append]
    rw [readUnits_first (firstByte_three h3), readUnits_continue hleast hmost,
      readUnits_last (by omega) (by omega), hbits, hc]
  · have hbits : ((n / 262144 * 64 + (0x80 + n / 4096 % 64 - 0x80)) * 64 +
        (0x80 + n / 64 % 64 - 0x80)) * 64 + (0x80 + n % 64 - 0x80) = n := by omega
    have hleast : (if n / 262144 = 0 then 0x90 else 0x80) ≤ 0x80 + n / 4096 % 64 := by
      split_ifs <;> omega
    have hmost : 0x80 + n / 4096 % 64 ≤ if n / 262144 = 4 then 0x8F else 0xBF := by
      split_ifs <;> omega
    simp only [List.map_cons, List.map_nil, List.cons_append, List.nil_append]
    rw [readUnits_first (firstByte_four (by omega)), readUnits_continue hleast hmost,
      readUnits_continue (by omega) (by omega), readUnits_last (by omega) (by omega), hbits, hc]

end PathRouting.Text
