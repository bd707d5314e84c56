import Mathlib.Algebra.GroupWithZero.Nat
import Mathlib.Data.List.Basic

/-!
# Lengths of texts

A text has a length in bytes of UTF-8 and one in code units of UTF-16. The second is never the
larger one, and they are equal for texts of ASCII characters only.
-/

namespace Unicode

/-- The bytes of a text. -/
def utf8 (s : String) : List UInt8 := s.toList.flatMap String.utf8EncodeChar

/-- The text with these bytes. -/
def ofUtf8 (data : List UInt8) : String := (String.fromUTF8? data.toByteArray).getD ""

lemma ofUtf8_utf8 (s : String) : ofUtf8 (utf8 s) = s := by
  have hbytes : (utf8 s).toByteArray = s.toByteArray := String.utf8Encode_toList
  rw [ofUtf8, hbytes, String.fromUTF8?, dif_pos s.isValidUTF8]
  rfl

/-- The number of code units of a character. -/
def charUnits (c : Char) : ℕ := if c.toNat < 0x10000 then 1 else 2

/-- The number of code units of a text. -/
def units (s : String) : ℕ := (s.toList.map charUnits).sum

/-- All characters are ASCII characters. -/
def IsAscii (s : String) : Prop := ∀ c ∈ s.toList, c.toNat < 0x80

instance decidableIsAscii (s : String) : Decidable (IsAscii s) :=
  List.decidableBAll (fun c : Char => c.toNat < 0x80) s.toList

lemma charUnits_cases (c : Char) : charUnits c ≤ c.utf8Size ∧ 1 ≤ charUnits c ∧
    (charUnits c = c.utf8Size ↔ c.toNat < 0x80) := by
  have hle : ∀ n : ℕ, n < 2 ^ 32 → (c.val ≤ UInt32.ofNat n ↔ c.toNat ≤ n) := by
    intro n hn
    rw [UInt32.le_iff_toNat_le, UInt32.toNat_ofNat_of_lt' hn]
    rfl
  have hsize : c.utf8Size = if c.toNat ≤ 0x7F then 1 else if c.toNat ≤ 0x7FF then 2 else
      if c.toNat ≤ 0xFFFF then 3 else 4 := by
    rw [← if_congr (hle 0x7F (by decide)) rfl rfl, ← if_congr (hle 0x7FF (by decide)) rfl rfl,
      ← if_congr (hle 0xFFFF (by decide)) rfl rfl]
    rfl
  rw [hsize, charUnits]
  split_ifs <;> omega

/-- A list of characters has at least as many bytes as code units, and as many only if all of
them are ASCII characters. -/
lemma sum_units (l : List Char) :
    (l.map charUnits).sum ≤ (l.flatMap String.utf8EncodeChar).length ∧
      ((l.map charUnits).sum = (l.flatMap String.utf8EncodeChar).length ↔
        ∀ c ∈ l, c.toNat < 0x80) := by
  induction l with
  | nil => simp
  | cons c l ih =>
    obtain ⟨hle, heq⟩ := ih
    obtain ⟨hcle, -, hceq⟩ := charUnits_cases c
    rw [List.map_cons, List.sum_cons, List.flatMap_cons, List.length_append,
      String.length_utf8EncodeChar, List.forall_mem_cons, ← heq, ← hceq]
    omega

lemma units_le (s : String) : units s ≤ (utf8 s).length := (sum_units s.toList).1

lemma units_eq_iff (s : String) : units s = (utf8 s).length ↔ IsAscii s := (sum_units s.toList).2

lemma utf8_eq_nil_iff (s : String) : utf8 s = [] ↔ s.toList = [] := by
  rw [utf8, List.flatMap_eq_nil_iff, List.eq_nil_iff_forall_not_mem]
  refine forall₂_congr fun c _ => iff_false_intro fun h => ?_
  have hpos := c.utf8Size_pos
  rw [← String.length_utf8EncodeChar, h] at hpos
  exact absurd hpos (Nat.lt_irrefl 0)

end Unicode
