import Dripcap.Library.Comparator
import Dripcap.Library.LittleEndian
import Mathlib.Data.FinEnum

/-!
# The order of the object cache

`CacheComparator<K>` of `object_cache.hpp` for the ids of packets: the keys of the database are the
bytes of the ids in the memory of a little-endian machine. The `int` that `Compare` returns has the
low half of the difference of two ids, so that it only sees their low halves and takes the sign from
the highest bit of this half. Where this order is total, the database is a map on the keys, as
`ObjectCache` takes it to be.
-/

namespace Dripcap

namespace CacheComparator

open Comparator

/-- `CacheComparator<uint64_t>::slice` -/
def slice (id : UInt64) : List UInt8 := LittleEndian.bytes 8 id.toNat

/-- `*reinterpret_cast<const uint64_t *>(a.data())` -/
def load (a : List UInt8) : UInt64 := UInt64.ofNat (LittleEndian.value (a.take 8))

/-- `CacheComparator<uint64_t>::Compare`. The result is narrowed to an `int`. -/
def compare (a b : List UInt8) : Int32 := (load a - load b).toUInt32.toInt32

/-- The database keeps one entry for keys that compare equal. -/
def SameEntry (a b : UInt64) : Prop := compare (slice a) (slice b) = 0

/-- What RocksDB requires of the comparator on the ids that are used as keys. -/
structure Required (ids : Set UInt64) : Prop where
  total : TotalOn ids fun a b => (compare (slice a) (slice b)).toInt
  entries : ∀ a ∈ ids, ∀ b ∈ ids, SameEntry a b → a = b

lemma load_slice (id : UInt64) : load (slice id) = id := by
  have hlength : (slice id).length = 8 := LittleEndian.length_bytes id.toNat_lt
  rw [load, ← hlength, List.take_length, slice, LittleEndian.value_bytes, UInt64.ofNat_toNat]

lemma toNat_sub (x y : UInt32) :
    ((x - y).toNat : ℤ) = ((x.toNat : ℤ) - y.toNat) % (2 * 2 ^ 31 : ℕ) := by
  have hy := y.toNat_lt
  rw [UInt32.toNat_sub]
  omega

/-- What is compared is the difference of the low halves, to the nearest of its values modulo
`2 ^ 32`. -/
lemma toInt_compare (a b : UInt64) : (compare (slice a) (slice b)).toInt =
    ((a.toUInt32.toNat : ℤ) - b.toUInt32.toNat).bmod (2 * 2 ^ 31) := by
  have hsigned : ∀ x : UInt32, x.toInt32.toInt = (x.toNat : ℤ).bmod (2 * 2 ^ 31) :=
    fun x => BitVec.toInt_eq_toNat_bmod x.toBitVec
  rw [compare, load_slice, load_slice, UInt64.toUInt32_sub, hsigned, toNat_sub, Int.emod_bmod]

lemma sameEntry_iff (a b : UInt64) :
    SameEntry a b ↔ (compare (slice a) (slice b)).toInt = 0 :=
  Int32.toInt_inj.symm

/-- Entries are not shared where the order is total. -/
lemma required_iff_total (ids : Set UInt64) :
    Required ids ↔ TotalOn ids fun a b => (compare (slice a) (slice b)).toInt := by
  constructor
  · exact Required.total
  · intro h
    refine ⟨h, fun a ha b hb hsame => ?_⟩
    exact (h.zero_iff a ha b hb).mp ((sameEntry_iff a b).mp hsame)

lemma sub_lt_iff (x r : UInt32) :
    x - r < 0x80000000 ↔ ((x.toNat : ℤ) - r.toNat) % (2 * 2 ^ 31 : ℕ) < (2 ^ 31 : ℕ) := by
  rw [← toNat_sub, UInt32.lt_iff_toNat_lt]
  exact Nat.cast_lt.symm

/-- A half of the circle may start at a number of 32 bits. -/
lemma exists_start (ids : Set UInt64) :
    (∃ r : ℤ, ∀ id ∈ ids, ((id.toUInt32.toNat : ℤ) - r) % (2 * 2 ^ 31 : ℕ) < (2 ^ 31 : ℕ)) ↔
      ∃ r : UInt32, ∀ id ∈ ids, id.toUInt32 - r < 0x80000000 := by
  simp only [sub_lt_iff]
  constructor
  · rintro ⟨r, hr⟩
    have hmod : ((UInt32.ofInt r).toNat : ℤ) = r % 2 ^ 32 := by
      rw [UInt32.ofInt, UInt32.toNat_ofNat']
      omega
    refine ⟨UInt32.ofInt r, fun id hid => ?_⟩
    have hid := hr id hid
    rw [hmod]
    omega
  · rintro ⟨r, hr⟩
    exact ⟨r.toNat, hr⟩

/-- The comparator meets the requirements on a set of ids exactly when their low halves are
different and in one half of the circle of numbers of 32 bits. -/
theorem required_iff (ids : Set UInt64) :
    Required ids ↔ Set.InjOn UInt64.toUInt32 ids ∧
      ∃ r : UInt32, ∀ id ∈ ids, id.toUInt32 - r < 0x80000000 := by
  have hcmp : (fun a b => (compare (slice a) (slice b)).toInt) =
      fun a b : UInt64 => ((a.toUInt32.toNat : ℤ) - b.toUInt32.toNat).bmod (2 * 2 ^ 31) :=
    funext₂ toInt_compare
  have hlow : ∀ a b : UInt64, (a.toUInt32.toNat : ℤ) % (2 * 2 ^ 31 : ℕ) =
      b.toUInt32.toNat % (2 * 2 ^ 31 : ℕ) ↔ a.toUInt32 = b.toUInt32 := by
    intro a b
    have ha := a.toUInt32.toNat_lt
    have hb := b.toUInt32.toNat_lt
    rw [← UInt32.toNat_inj]
    omega
  rw [required_iff_total, hcmp, totalOn_bmod_iff ids.toFinite (by norm_num), exists_start]
  simp only [Set.InjOn, hlow]

/-- Of the ids that are given out one after the other the first `2 ^ 31` are ordered. -/
theorem required_ids_iff (n : UInt64) : Required {id | 1 ≤ id ∧ id ≤ n} ↔ n ≤ 0x80000000 := by
  have hmem : ∀ id : UInt64, id ∈ {id | 1 ≤ id ∧ id ≤ n} ↔ 1 ≤ id.toNat ∧ id.toNat ≤ n.toNat :=
    fun id => and_congr UInt64.le_iff_toNat_le UInt64.le_iff_toNat_le
  have hbound : n ≤ 0x80000000 ↔ n.toNat ≤ 0x80000000 := UInt64.le_iff_toNat_le
  rw [required_iff, hbound]
  constructor
  · rintro ⟨-, r, hr⟩
    by_contra hn
    -- the first id and the one after the first `2 ^ 31` are opposite to each other
    have hone : (1 : UInt64).toNat = 1 := rfl
    have hnext : (0x80000001 : UInt64).toNat = 0x80000001 := rfl
    have hfirst := (sub_lt_iff _ r).mp (hr 1 ((hmem 1).mpr (by omega)))
    have hlast := (sub_lt_iff _ r).mp (hr 0x80000001 ((hmem _).mpr (by omega)))
    rw [UInt64.toNat_toUInt32] at hfirst hlast
    omega
  · intro hn
    refine ⟨fun a ha b hb hab => ?_, 1, fun id hid => (sub_lt_iff _ 1).mpr ?_⟩
    · have ha := (hmem a).mp ha
      have hb := (hmem b).mp hb
      have hlow := UInt32.toNat_inj.mpr hab
      rw [UInt64.toNat_toUInt32, UInt64.toNat_toUInt32] at hlow
      apply UInt64.toNat_inj.mp
      omega
    · have hid := (hmem id).mp hid
      have hone : (1 : UInt32).toNat = 1 := rfl
      rw [UInt64.toNat_toUInt32, hone]
      omega

/-- The ids `1` and `2 ^ 32 + 1` have one entry. Two ids that are opposite to each other are both
less than the other, and there are three ids each of which is less than the next. -/
theorem not_required :
    ¬ Required Set.univ ∧ SameEntry 1 0x100000001 ∧
    (compare (slice 0) (slice 0x80000000) < 0 ∧ compare (slice 0x80000000) (slice 0) < 0) ∧
    (compare (slice 0) (slice 0x60000000) < 0 ∧
      compare (slice 0x60000000) (slice 0xc0000000) < 0 ∧
      compare (slice 0xc0000000) (slice 0) < 0) := by
  have hsame : SameEntry 1 0x100000001 := by
    rw [SameEntry, compare, load_slice, load_slice]
    rfl
  refine ⟨fun h => ?_, hsame, ?_⟩
  · exact absurd (h.entries 1 trivial 0x100000001 trivial hsame) (by decide)
  · simp only [compare, load_slice]
    decide

end CacheComparator

end Dripcap
