import Mathlib.Data.Nat.Digits.Lemmas

/-!
# Numbers as bytes

`bytes w n` is the memory of a number of `w` bytes, lowest byte first. A number that does not fit
has more bytes instead of being cut off, so different numbers have different bytes throughout.
-/

namespace LittleEndian

/-- The digits of a number to base 256, lowest first, and at least `w` of them. -/
def bytes (w n : ℕ) : List UInt8 := (Nat.digitsAppend 256 w n).map UInt8.ofNat

/-- The number with these digits. -/
def value (data : List UInt8) : ℕ := Nat.ofDigits 256 (data.map UInt8.toNat)

/-- Digits to base 256 are bytes. -/
lemma map_toNat_ofNat {ds : List ℕ} (h : ∀ d ∈ ds, d < 256) :
    (ds.map UInt8.ofNat).map UInt8.toNat = ds := by
  rw [List.map_map]
  conv_rhs => rw [← List.map_id ds]
  apply List.map_congr_left
  intro d hd
  show (UInt8.ofNat d).toNat = d
  rw [UInt8.toNat_ofNat', Nat.mod_eq_of_lt (h d hd)]

@[simp] lemma value_bytes (w n : ℕ) : value (bytes w n) = n := by
  have hdigits : ∀ d ∈ Nat.digitsAppend 256 w n, d < 256 :=
    fun d hd => Nat.lt_of_mem_digitsAppend (by norm_num) w d hd
  rw [value, bytes, map_toNat_ofNat hdigits, Nat.digitsAppend, Nat.ofDigits_append_replicate_zero,
    Nat.ofDigits_digits]

lemma bytes_injective (w : ℕ) : Function.Injective (bytes w) := by
  intro n m h
  rw [← value_bytes w n, h, value_bytes]

lemma le_length_bytes (w n : ℕ) : w ≤ (bytes w n).length := by
  rw [bytes, Nat.digitsAppend, List.length_map, List.length_append, List.length_replicate]
  exact le_add_tsub

/-- A number that fits has `w` bytes. -/
lemma length_bytes {w n : ℕ} (h : n < 256 ^ w) : (bytes w n).length = w := by
  rw [bytes, List.length_map, Nat.length_digitsAppend (by norm_num) w h]

lemma map_toNat_lt (data : List UInt8) : ∀ d ∈ data.map UInt8.toNat, d < 256 := by
  intro d hd
  obtain ⟨x, _, rfl⟩ := List.mem_map.mp hd
  exact x.toNat_lt

lemma value_lt (data : List UInt8) : value data < 256 ^ data.length := by
  have hlt := Nat.ofDigits_lt_base_pow_length (by norm_num) (map_toNat_lt data)
  rwa [List.length_map] at hlt

lemma value_append (data data' : List UInt8) :
    value (data ++ data') = value data + 256 ^ data.length * value data' := by
  rw [value, List.map_append, Nat.ofDigits_append, List.length_map]
  rfl

@[simp] lemma value_singleton (x : UInt8) : value [x] = x.toNat := by
  simp [value]

/-- A sequence of bytes is the memory of its value. -/
lemma bytes_value (data : List UInt8) : bytes data.length (value data) = data := by
  have hdigits : Nat.digitsAppend 256 data.length (value data) = data.map UInt8.toNat := by
    apply (Nat.setInvOn_digitsAppend_ofDigits (by norm_num) data.length).1
    exact ⟨List.length_map _, map_toNat_lt data⟩
  rw [bytes, hdigits, List.map_map]
  conv_rhs => rw [← List.map_id data]
  apply List.map_congr_left
  intro x _
  exact UInt8.ofNat_toNat

end LittleEndian

/-!
# Highest byte first
-/

namespace BigEndian

/-- The memory of a number of `w` bytes, highest byte first. -/
def bytes (w n : ℕ) : List UInt8 := (LittleEndian.bytes w n).reverse

/-- The number with these digits, highest first. -/
def value (data : List UInt8) : ℕ := LittleEndian.value data.reverse

@[simp] lemma value_bytes (w n : ℕ) : value (bytes w n) = n := by
  rw [value, bytes, List.reverse_reverse, LittleEndian.value_bytes]

lemma length_bytes {w n : ℕ} (h : n < 256 ^ w) : (bytes w n).length = w := by
  rw [bytes, List.length_reverse, LittleEndian.length_bytes h]

lemma bytes_value (data : List UInt8) : bytes data.length (value data) = data := by
  rw [bytes, value, ← List.length_reverse, LittleEndian.bytes_value, List.reverse_reverse]

lemma value_lt (data : List UInt8) : value data < 256 ^ data.length := by
  have hlt := LittleEndian.value_lt data.reverse
  rwa [List.length_reverse] at hlt

/-- Sequences of one length are told apart by their values. -/
lemma value_inj {data data' : List UInt8} (hlen : data.length = data'.length) :
    value data = value data' ↔ data = data' := by
  constructor
  · intro h
    rw [← bytes_value data, h, hlen, bytes_value]
  · rintro rfl
    rfl

@[simp] lemma value_nil : value [] = 0 := rfl

lemma value_cons (x : UInt8) (data : List UInt8) :
    value (x :: data) = x.toNat * 256 ^ data.length + value data := by
  rw [value, List.reverse_cons, LittleEndian.value_append, List.length_reverse,
    LittleEndian.value_singleton, Nat.add_comm, Nat.mul_comm]
  rfl

end BigEndian
