import FlagGovernance.Text.Utf8
import FlagGovernance.Proofs.Branching
import Mathlib.Data.String.Basic
/-
The order of texts is the order of their bytes.

A character is written as one to four bytes, the first of which tells how many there
are and is the greater the more there are.  So of two characters the lesser is written
with the lesser byte at the first place where they are written differently, and texts
are in order just when their bytes are.
-/

namespace FlagGovernance.Text

/-- The bytes of the character with the given number. -/
def charBytes (n : Nat) : List Nat :=
  if n ≤ 0x7F then [n]
  else if n ≤ 0x7FF then [n / 64 % 32 + 0xC0, n % 64 + 0x80]
  else if n ≤ 0xFFFF then [n / 4096 % 16 + 0xE0, n / 64 % 64 + 0x80, n % 64 + 0x80]
  else [n / 262144 % 8 + 0xF0, n / 4096 % 64 + 0x80, n / 64 % 64 + 0x80, n % 64 + 0x80]

theorem charBytes_ne_nil (n : Nat) : charBytes n ≠ [] := by
  unfold charBytes
  split_ifs <;> simp

theorem charBytes_precedes {m n : Nat} (hlt : m < n) (hn : n < 0x110000) :
    Precedes (charBytes m) (charBytes n) := by
  unfold charBytes
  by_cases hone : n ≤ 0x7F
  · rw [if_pos (by omega), if_pos hone]
    exact precedes_cons hlt [] []
  rw [if_neg hone]
  by_cases htwo : n ≤ 0x7FF
  · rw [if_pos htwo]
    split_ifs
    · exact precedes_cons (by omega) _ _
    · exact precedes_cons_of_le (by omega) fun _ => precedes_cons (by omega) _ _
    · omega
    · omega
  rw [if_neg htwo]
  by_cases hthree : n ≤ 0xFFFF
  · rw [if_pos hthree]
    split_ifs
    · exact precedes_cons (by omega) _ _
    · exact precedes_cons (by omega) _ _
    · exact precedes_cons_of_le (by omega) fun _ =>
        precedes_cons_of_le (by omega) fun _ => precedes_cons (by omega) _ _
    · omega
  rw [if_neg hthree]
  split_ifs
  · exact precedes_cons (by omega) _ _
  · exact precedes_cons (by omega) _ _
  · exact precedes_cons (by omega) _ _
  · exact precedes_cons_of_le (by omega) fun _ => precedes_cons_of_le (by omega) fun _ =>
      precedes_cons_of_le (by omega) fun _ => precedes_cons (by omega) _ _

theorem toNat_utf8EncodeChar (c : Char) :
    (String.utf8EncodeChar c).map UInt8.toNat = charBytes c.toNat := by
  simp only [String.utf8EncodeChar, charBytes, Char.toNat_val]
  split_ifs <;> simp <;> omega

theorem toList_loop (bytes : ByteArray) (place : Nat) (taken : List UInt8) :
    ByteArray.toList.loop bytes place taken = taken.reverse ++ bytes.data.toList.drop place := by
  fun_induction ByteArray.toList.loop bytes place taken with
  | case1 place taken hlt ih =>
      have hget : bytes.get! place = bytes.data.toList.get ⟨place, hlt⟩ :=
        getElem!_pos bytes.data place hlt
      rw [ih, List.drop_eq_getElem_cons hlt, hget]
      simp
  | case2 place taken hge =>
      have hsize : bytes.data.toList.length = bytes.size := rfl
      rw [List.drop_eq_nil_of_le (by omega), List.append_nil]

theorem utf8Bytes_eq_flatMap (text : String) :
    utf8Bytes text = text.toList.flatMap (fun c => charBytes c.toNat) := by
  have hbytes : text.toUTF8 = (text.toList.flatMap String.utf8EncodeChar).toByteArray := by
    conv_lhs => rw [← String.ofList_toList (s := text)]
    rw [String.toUTF8_eq_toByteArray, String.toByteArray_ofList]
    rfl
  rw [utf8Bytes, hbytes, ByteArray.toList, toList_loop]
  simp [List.map_flatMap, toNat_utf8EncodeChar]

theorem utf8Bytes_lt_of_lt {first second : String} (hlt : first < second) :
    utf8Bytes first < utf8Bytes second := by
  rw [utf8Bytes_eq_flatMap, utf8Bytes_eq_flatMap]
  refine flatMap_lt_flatMap (fun c d hchar => ?_) (fun c => charBytes_ne_nil c.toNat)
    (String.lt_iff.mp hlt)
  have hbound : d.toNat < 0x110000 := by
    have hvalid := d.valid
    simp only [UInt32.isValidChar, Nat.isValidChar, Char.toNat_val] at hvalid
    omega
  exact charBytes_precedes hchar hbound

theorem utf8Bytes_le_iff {first second : String} :
    utf8Bytes first ≤ utf8Bytes second ↔ first ≤ second := by
  constructor
  · intro hbytes
    by_contra hnot
    exact absurd (utf8Bytes_lt_of_lt (not_le.mp hnot)) (not_lt.mpr hbytes)
  · intro hle
    rcases hle.lt_or_eq with hlt | rfl
    · exact (utf8Bytes_lt_of_lt hlt).le
    · exact le_refl _

end FlagGovernance.Text
