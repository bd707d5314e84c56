import Dripcap.Script.Hex
import Dripcap.Script.Read
import Dripcap.Script.Slice

/-!
# Bytes of payloads

The numbers that dissectors read of a payload, and what a payload has at an index.
-/

namespace Dripcap

/-! ### Numbers in a payload -/

namespace Payload

variable (payload : Payload) (offset : ℕ)

/-- `payload.readUInt8(offset, true)` -/
def uint8 : Except ReadError ℕ := (payload.readUInt8 offset true).map Int.toNat

/-- `payload.readUInt16BE(offset, true)` -/
def uint16 : Except ReadError ℕ := (payload.readUInt16BE offset true).map Int.toNat

/-- `payload.readUInt32BE(offset, true)` -/
def uint32 : Except ReadError ℕ := (payload.readUInt32BE offset true).map Int.toNat

end Payload

/-! ### Bytes of a payload -/

/-- The byte at an index, as a number. -/
def Buffer.byte (b : Buffer) (i : ℕ) : ℕ := (b.bytes.getD i 0).toNat

namespace Payload

variable (b : Payload) {i k s e : ℕ}

lemma byte_lt (i : ℕ) : b.byte i < 256 := UInt8.toNat_lt _

lemma start_slice (hs : s ≤ b.length) : (b.slice s e).start = b.start + s := by
  have hlen := b.start_add_length
  have hfin := b.fin_le
  have hsize := b.size_lt
  rw [slice, Buffer.slice_start_of_lt b (by omega), min_eq_left (by omega)]

lemma fin_slice (hs : s ≤ e) (he : e ≤ b.length) : (b.slice s e).fin = b.start + e :=
  Buffer.slice_fin_of_le b hs he

lemma length_slice (hs : s ≤ e) (he : e ≤ b.length) : (b.slice s e).length = e - s := by
  rw [Buffer.length, b.start_slice (hs.trans he), b.fin_slice hs he]
  omega

lemma length_slice_le (hs : s ≤ b.length) : (b.slice s e).length ≤ b.length := by
  have hstart := b.start_slice (e := e) hs
  have hfin : (b.slice s e).fin ≤ b.fin := Buffer.slice_fin_le b
  have hlen := b.start_add_length
  rw [Buffer.length, hstart]
  omega

lemma bytes_slice (hs : s ≤ b.length) (he : e ≤ b.length) :
    (b.slice s e).bytes = (b.bytes.drop s).take (e - s) := Buffer.slice_bytes b hs he

lemma byte_slice (he : e ≤ b.length) (h : s + i < e) : (b.slice s e).byte i = b.byte (s + i) := by
  rw [Buffer.byte, Buffer.byte, b.bytes_slice (by omega) he]
  simp only [List.getD_eq_getElem?_getD]
  rw [List.getElem?_take_of_lt (by omega), List.getElem?_drop]

/-- A slice of one byte. -/
lemma bytes_slice_one (h : i < b.length) :
    (b.slice i (i + 1)).bytes = [UInt8.ofNat (b.byte i)] := by
  have hlt : i < b.bytes.length := by rwa [Buffer.length_bytes]
  rw [b.bytes_slice h.le h, Nat.add_sub_cancel_left i 1, List.take_one_drop_eq_of_lt_length hlt,
    Buffer.byte, List.getD_eq_getElem?_getD, List.getElem?_eq_getElem hlt, Option.getD_some,
    UInt8.ofNat_toNat]
  rfl

/-- Without a check the readers read inside the view, too. -/
lemma read_noassert {signed : Bool} {cast : ℕ → ℤ}
    (hcast : ∀ num < 256 ^ k, cast num = Buffer.interpret signed k num) (h : i + k ≤ b.length) :
    b.read k cast i true =
      .ok (Buffer.interpret signed k (BigEndian.value (b.slice i (i + k)).bytes)) := by
  have hlen := b.start_add_length
  have hfin := b.fin_le
  have hsize := b.size_lt
  rw [b.bytes_slice (by omega) h, Nat.add_sub_cancel_left, ← Buffer.read_inside hcast h,
    Buffer.read_of_le (by rw [Nat.mod_eq_of_lt (by omega)]; exact h)]
  rfl

lemma uint8_eq (h : i < b.length) : b.uint8 i = .ok (b.byte i) := by
  have hcast : ∀ num < 256 ^ 1, ((num : ℕ) : ℤ) = Buffer.interpret false 1 num := fun _ _ => rfl
  have hread : b.readUInt8 i true = _ := b.read_noassert hcast h
  rw [uint8, hread, b.bytes_slice_one h, BigEndian.value_cons]
  simp [Nat.mod_eq_of_lt (b.byte_lt i), Buffer.interpret, Except.map]

lemma uint16_eq (h : i + 2 ≤ b.length) :
    b.uint16 i = .ok (BigEndian.value (b.slice i (i + 2)).bytes) := by
  have hread : b.readUInt16BE i true = _ := b.read_noassert (fun _ => Buffer.mod_eq_interpret) h
  rw [uint16, hread]
  rfl

lemma uint32_eq (h : i + 4 ≤ b.length) :
    b.uint32 i = .ok (BigEndian.value (b.slice i (i + 4)).bytes) := by
  have hread : b.readUInt32BE i true = _ := b.read_noassert (fun _ => Buffer.mod_eq_interpret) h
  rw [uint32, hread]
  rfl

end Payload

/-! ### What a payload has at an index -/

namespace Buffer

variable (b : Buffer) {i n : ℕ} {x : UInt8} {data rest : List UInt8}

/-- The payload has these bytes at an index. -/
def HasAt (b : Buffer) (i : ℕ) (data : List UInt8) : Prop :=
  ∃ before after, before.length = i ∧ b.bytes = before ++ data ++ after

variable {b}

lemma HasAt.le (h : b.HasAt i data) : i + data.length ≤ b.length := by
  obtain ⟨before, after, rfl, hbytes⟩ := h
  rw [← b.length_bytes, hbytes, List.length_append, List.length_append]
  exact Nat.le_add_right _ _

lemma HasAt.left (h : b.HasAt i (data ++ rest)) : b.HasAt i data := by
  obtain ⟨before, after, hi, hbytes⟩ := h
  exact ⟨before, rest ++ after, hi, by rw [hbytes]; simp only [List.append_assoc]⟩

lemma HasAt.right (h : b.HasAt i (data ++ rest)) : b.HasAt (i + data.length) rest := by
  obtain ⟨before, after, rfl, hbytes⟩ := h
  exact ⟨before ++ data, after, List.length_append, by rw [hbytes]; simp only [List.append_assoc]⟩

lemma HasAt.skip (h : b.HasAt i (data ++ rest)) (hlen : data.length = n) :
    b.HasAt (i + n) rest := hlen ▸ h.right

lemma HasAt.tail (h : b.HasAt i (x :: data)) : b.HasAt (i + 1) data := by
  have hcons : b.HasAt i ([x] ++ data) := h
  exact hcons.right

lemma HasAt.getElem? (h : b.HasAt i (x :: data)) : b.bytes[i]? = some x := by
  obtain ⟨before, after, rfl, hbytes⟩ := h
  rw [hbytes, List.append_assoc, List.getElem?_append_right le_rfl, Nat.sub_self]
  rfl

lemma HasAt.byte (h : b.HasAt i (x :: data)) : b.byte i = x.toNat := by
  rw [Buffer.byte, List.getD_eq_getElem?_getD, h.getElem?]
  rfl

lemma HasAt.get (h : b.HasAt i (x :: data)) : b.get i = .ok x := by
  obtain ⟨hlt, hx⟩ := List.getElem?_eq_some_iff.mp h.getElem?
  rw [get_eq, dif_pos hlt, hx]

lemma HasAt.bytes_slice {b : Payload} (h : b.HasAt i data) :
    (b.slice i (i + data.length)).bytes = data := by
  have hle := h.le
  obtain ⟨before, after, rfl, hbytes⟩ := h
  rw [b.bytes_slice (by omega) hle, hbytes, List.append_assoc, List.drop_left,
    Nat.add_sub_cancel_left, List.take_left]

lemma HasAt.slice_eq {b : Payload} {e : ℕ} (h : b.HasAt i data) (hlen : data.length = n)
    (he : i + n = e) : (b.slice i e).bytes = data := by
  rw [← he, ← hlen, h.bytes_slice]

lemma HasAt.uint8 {b : Payload} (h : b.HasAt i (x :: data)) : b.uint8 i = .ok x.toNat := by
  rw [b.uint8_eq (Nat.lt_of_lt_of_le (by simp) h.le), h.byte]

lemma HasAt.uint16 {b : Payload} (h : b.HasAt i data) (hlen : data.length = 2) :
    b.uint16 i = .ok (BigEndian.value data) := by
  have hle := h.le
  have hslice := h.bytes_slice
  rw [hlen] at hle hslice
  rw [b.uint16_eq hle, hslice]

lemma HasAt.uint32 {b : Payload} (h : b.HasAt i data) (hlen : data.length = 4) :
    b.uint32 i = .ok (BigEndian.value data) := by
  have hle := h.le
  have hslice := h.bytes_slice
  rw [hlen] at hle hslice
  rw [b.uint32_eq hle, hslice]

/-- A payload has its own bytes. -/
lemma HasAt.of_bytes (h : b.bytes = data ++ rest) : b.HasAt 0 data := ⟨[], rest, rfl, h⟩

/-- What follows up to the end of a payload. -/
lemma HasAt.bytes_slice_rest {b : Payload} {front : List UInt8} (h : b.HasAt i data)
    (hbytes : b.bytes = front ++ rest) (hlen : front.length = i + data.length) :
    (b.slice i b.length).bytes = data ++ rest := by
  have hle := h.le
  obtain ⟨before, after, rfl, hbytes'⟩ := h
  obtain ⟨rfl, rfl⟩ := List.append_inj (hbytes'.symm.trans hbytes)
    (by rw [List.length_append, hlen])
  rw [b.bytes_slice (by omega) le_rfl, hbytes, List.append_assoc, List.drop_left,
    List.take_of_length_le]
  have hsize := b.length_bytes
  rw [hbytes, List.length_append, hlen] at hsize
  rw [List.length_append]
  omega

/-- What a slice from the beginning has. -/
lemma HasAt.of_slice {b : Payload} (hn : n ≤ b.length) (h : (b.slice 0 n).HasAt i data) :
    b.HasAt i data := by
  obtain ⟨before, after, hi, hbytes⟩ := h
  rw [b.bytes_slice (Nat.zero_le _) hn, List.drop_zero, Nat.sub_zero] at hbytes
  refine ⟨before, after ++ b.bytes.drop n, hi, ?_⟩
  rw [← List.append_assoc, ← hbytes, List.take_append_drop]

/-- The end of a slice from the beginning. -/
lemma hasAt_slice {b : Payload} (hi : i ≤ n) (hn : n ≤ b.length)
    (h : (b.slice i n).bytes = data) : (b.slice 0 n).HasAt i data := by
  have hlen := b.length_bytes
  refine ⟨b.bytes.take i, [], by rw [List.length_take]; omega, ?_⟩
  rw [List.append_nil, ← h, b.bytes_slice (Nat.zero_le _) hn, b.bytes_slice (hi.trans hn) hn,
    List.drop_zero, Nat.sub_zero, ← List.take_add, Nat.add_sub_cancel' hi]

end Buffer

end Dripcap
