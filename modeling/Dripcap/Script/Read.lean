import Dripcap.Library.LittleEndian
import Dripcap.Script.Buffer

/-!
# The readers

`readInt8` to `readUInt32BE` of `buffer.cpp`. All sums are sums of `size_t`: a script that passes
a negative offset gets one close to `2 ^ 64`, and both the sum of the bounds check and the index
of `vec->at` can go around.
-/

namespace Dripcap

/-- How a reader throws: by `v8pp::throw_ex` with a text, or as `std::out_of_range` of
`vec->at`. -/
inductive ReadError where
  | thrown (message : String)
  | outOfRange
deriving DecidableEq, Repr

namespace Buffer

variable (b : Buffer)

/-- `vec->at` -/
def vecAt (i : ℕ) : Except ReadError UInt8 :=
  match b.vec[i]? with
  | some x => .ok x
  | none => .error .outOfRange

/-- `vec->at(i + offset + start)` for the first `k` values of `i`. -/
def vecAts (k offset : ℕ) : Except ReadError (List UInt8) :=
  (List.range k).mapM fun i => b.vecAt ((i + offset + b.start) % 2 ^ 64)

/-- `(buf[0] << 8 * (k - 1)) | ... | (buf[k - 1] << 0)` for `k` bytes. -/
def shifted : List UInt8 → ℕ
  | [] => 0
  | x :: buf => (x.toNat <<< (8 * buf.length)) ||| shifted buf

/-- The body all readers have; `k` is the size of the type and `cast` the conversion to it. -/
def read (k : ℕ) (cast : ℕ → ℤ) (offset : ℕ) (noassert : Bool) : Except ReadError ℤ :=
  if !noassert && decide ((offset + k) % 2 ^ 64 > b.length) then
    .error (.thrown "index out of range")
  else (b.vecAts k offset).map fun buf => cast (shifted buf)

/-- `Buffer::readInt8` -/
def readInt8 : ℕ → Bool → Except ReadError ℤ := b.read 1 fun num => Int.bmod num (2 ^ 8)

/-- `Buffer::readInt16BE` -/
def readInt16BE : ℕ → Bool → Except ReadError ℤ := b.read 2 fun num => Int.bmod num (2 ^ 16)

/-- `Buffer::readInt32BE` -/
def readInt32BE : ℕ → Bool → Except ReadError ℤ := b.read 4 fun num => Int.bmod num (2 ^ 32)

/-- `Buffer::readUInt8` -/
def readUInt8 : ℕ → Bool → Except ReadError ℤ := b.read 1 fun num => num

/-- `Buffer::readUInt16BE` -/
def readUInt16BE : ℕ → Bool → Except ReadError ℤ := b.read 2 fun num => (num % 2 ^ 16 : ℕ)

/-- `Buffer::readUInt32BE` -/
def readUInt32BE : ℕ → Bool → Except ReadError ℤ := b.read 4 fun num => (num % 2 ^ 32 : ℕ)

/-! ### The number in the buffer -/

/-- The shifted bytes are the number they stand for. -/
lemma shifted_eq (buf : List UInt8) : shifted buf = BigEndian.value buf := by
  induction buf with
  | nil => rfl
  | cons x buf ih =>
    have hlt : BigEndian.value buf < 2 ^ (8 * buf.length) := by
      have h := BigEndian.value_lt buf
      rwa [show 256 = 2 ^ 8 from rfl, ← pow_mul] at h
    have hpow : 2 ^ (8 * buf.length) = 256 ^ buf.length := pow_mul 2 8 buf.length
    rw [shifted, ih, BigEndian.value_cons, ← Nat.shiftLeft_add_eq_or_of_lt hlt, Nat.shiftLeft_eq,
      hpow]

/-- How a reader interprets a number of `k` bytes. -/
def interpret (signed : Bool) (k num : ℕ) : ℤ :=
  if signed && decide (256 ^ k ≤ 2 * num) then num - 256 ^ k else num

lemma bmod_eq_interpret {k num : ℕ} (h : num < 256 ^ k) :
    Int.bmod num (256 ^ k) = interpret true k num := by
  have hmod : (num : ℤ) % (256 ^ k : ℕ) = num := Int.emod_eq_of_lt (Int.natCast_nonneg _)
    (by exact_mod_cast h)
  have hcast : ((256 ^ k : ℕ) : ℤ) = 256 ^ k := by norm_cast
  rw [Int.bmod_def, hmod]
  simp only [interpret, Bool.true_and, decide_eq_true_eq]
  generalize 256 ^ k = m at h hcast ⊢
  split_ifs <;> omega

lemma mod_eq_interpret {k num : ℕ} (h : num < 256 ^ k) :
    ((num % 256 ^ k : ℕ) : ℤ) = interpret false k num := by
  rw [Nat.mod_eq_of_lt h]
  rfl

/-! ### Which bytes are read -/

variable {b} {k offset : ℕ}

/-- The indices of `vec->at` that do not go around, or all go around. -/
lemma vecAts_eq {i : ℕ} (hi : ∀ j < k, (j + offset + b.start) % 2 ^ 64 = i + j)
    (hlen : i + k ≤ b.vec.length) : b.vecAts k offset = .ok ((b.vec.drop i).take k) := by
  induction k with
  | zero => rfl
  | succ k ih =>
    have hlt : i + k < b.vec.length := hlen
    have hlast : b.vecAt ((k + offset + b.start) % 2 ^ 64) = .ok b.vec[i + k] := by
      rw [hi k (Nat.lt_succ_self k), vecAt, List.getElem?_eq_getElem hlt]
    have hrest := ih (fun j hj => hi j (Nat.lt_succ_of_lt hj)) (Nat.le_of_succ_le hlen)
    unfold vecAts at hrest ⊢
    have htake : (b.vec.drop i).take (k + 1) = (b.vec.drop i).take k ++ [b.vec[i + k]] := by
      rw [List.take_add_one, List.getElem?_drop, List.getElem?_eq_getElem hlt]
      rfl
    rw [List.range_succ, List.mapM_append, hrest, List.mapM_cons, hlast, htake]
    rfl

/-- A first index behind the vector throws. -/
lemma vecAts_error (hk : 0 < k) (h : b.vec.length ≤ (offset + b.start) % 2 ^ 64) :
    b.vecAts k offset = .error .outOfRange := by
  obtain ⟨n, rfl⟩ := Nat.exists_eq_succ_of_ne_zero hk.ne'
  have hfirst : b.vecAt ((0 + offset + b.start) % 2 ^ 64) = .error .outOfRange := by
    rw [Nat.zero_add, vecAt, List.getElem?_eq_none h]
  rw [vecAts, List.range_succ_eq_map, List.mapM_cons, hfirst]
  rfl

lemma drop_take_bytes (h : offset + k ≤ b.length) :
    (b.bytes.drop offset).take k = (b.vec.drop (b.start + offset)).take k := by
  have hle : k ≤ b.length - offset := Nat.le_sub_of_add_le' h
  rw [bytes, List.drop_take, List.take_take, List.drop_drop, min_eq_left hle]

/-! ### Checked reads -/

/-- What a checked read has to do: it throws, or the bytes at `offset` are inside the view and
the result is the number they stand for. -/
def Checked (b : Buffer) (signed : Bool) (k offset : ℕ) (result : Except ReadError ℤ) : Prop :=
  ∀ num, result = .ok num → offset + k ≤ b.length ∧
    num = interpret signed k (BigEndian.value ((b.bytes.drop offset).take k))

/-- The sum of the check does not go around, or the index does not, or the sum goes around to a
number that is too large all the same. -/
def SumsFit (b : Buffer) (k offset : ℕ) : Prop :=
  offset + k < 2 ^ 64 ∨ offset + b.start < 2 ^ 64 ∨ b.length + 2 ^ 64 < offset + k

lemma checked_error {signed : Bool} {result : Except ReadError ℤ} {e : ReadError}
    (h : result = .error e) : b.Checked signed k offset result := by
  intro num hnum
  rw [h] at hnum
  cases hnum

/-- The check of a sum that is too large throws. -/
lemma read_error {cast : ℕ → ℤ} (h : b.length < (offset + k) % 2 ^ 64) :
    b.read k cast offset false = .error (.thrown "index out of range") := by
  rw [read, if_pos]
  simpa using h

/-- What is read when the check passes. -/
lemma read_of_le {cast : ℕ → ℤ} (h : (offset + k) % 2 ^ 64 ≤ b.length) :
    b.read k cast offset false = (b.vecAts k offset).map fun buf => cast (shifted buf) := by
  rw [read, if_neg]
  simpa using h

section Reader

variable {signed : Bool} {cast : ℕ → ℤ}

/-- Reading inside the view. -/
lemma read_inside (hcast : ∀ num < 256 ^ k, cast num = interpret signed k num)
    (h : offset + k ≤ b.length) : b.read k cast offset false =
      .ok (interpret signed k (BigEndian.value ((b.bytes.drop offset).take k))) := by
  have hlen := b.start_add_length
  have hfin := b.fin_le
  have hsize := b.size_lt
  have hread : b.vecAts k offset = .ok ((b.bytes.drop offset).take k) := by
    rw [drop_take_bytes h]
    apply vecAts_eq
    · intro j hj
      rw [Nat.mod_eq_of_lt (by omega)]
      omega
    · omega
  have hlt : BigEndian.value ((b.bytes.drop offset).take k) < 256 ^ k := by
    have hlength : ((b.bytes.drop offset).take k).length = k := by
      rw [List.length_take, List.length_drop, length_bytes]
      omega
    have hvalue := BigEndian.value_lt ((b.bytes.drop offset).take k)
    rwa [hlength] at hvalue
  rw [read_of_le, hread, ← hcast _ hlt, ← shifted_eq]
  · rfl
  · rwa [Nat.mod_eq_of_lt (by omega)]

/-- Both sums go around and the check passes: bytes in front of the view are read. -/
lemma read_wrapped (hoffset : offset < 2 ^ 64) (hk : k ≤ 4)
    (hsum : 2 ^ 64 ≤ offset + k) (hstart : 2 ^ 64 ≤ offset + b.start)
    (hcheck : offset + k ≤ b.length + 2 ^ 64) :
    ∃ num, b.read k cast offset false = .ok num := by
  have hlen := b.start_add_length
  have hfin := b.fin_le
  have hsize := b.size_lt
  obtain ⟨i, hi⟩ := Nat.exists_eq_add_of_le' hstart
  obtain ⟨r, hr⟩ := Nat.exists_eq_add_of_le' hsum
  have hread : b.vecAts k offset = .ok ((b.vec.drop i).take k) := by
    apply vecAts_eq
    · intro j hj
      have hj' : j + offset + b.start = (i + j) + 2 ^ 64 := by omega
      rw [hj', Nat.add_mod_right, Nat.mod_eq_of_lt (by omega)]
    · omega
  refine ⟨cast (shifted ((b.vec.drop i).take k)), ?_⟩
  rw [read_of_le, hread]
  · rfl
  · rw [hr, Nat.add_mod_right, Nat.mod_eq_of_lt (by omega)]
    omega

/-- A reader stays inside the view exactly when its sums fit. -/
lemma checked_read_iff (hk : 0 < k) (hk' : k ≤ 4) (hoffset : offset < 2 ^ 64)
    (hcast : ∀ num < 256 ^ k, cast num = interpret signed k num) :
    b.Checked signed k offset (b.read k cast offset false) ↔ b.SumsFit k offset := by
  have hlen := b.start_add_length
  have hfin := b.fin_le
  have hsize := b.size_lt
  rcases Nat.lt_or_ge (offset + k) (2 ^ 64) with hsum | hsum
  · refine iff_of_true ?_ (Or.inl hsum)
    rcases Nat.lt_or_ge b.length (offset + k) with hlt | hle
    · apply checked_error
      apply read_error
      rwa [Nat.mod_eq_of_lt hsum]
    · intro num hnum
      rw [read_inside hcast hle] at hnum
      cases hnum
      exact ⟨hle, rfl⟩
  · obtain ⟨r, hr⟩ := Nat.exists_eq_add_of_le' hsum
    have hmod : (offset + k) % 2 ^ 64 = r := by
      rw [hr, Nat.add_mod_right, Nat.mod_eq_of_lt (by omega)]
    rcases Nat.lt_or_ge b.length r with hlt | hle
    · refine iff_of_true ?_ (Or.inr (Or.inr (by omega)))
      apply checked_error
      apply read_error
      rwa [hmod]
    · rcases Nat.lt_or_ge (offset + b.start) (2 ^ 64) with hstart | hstart
      · refine iff_of_true ?_ (Or.inr (Or.inl hstart))
        apply checked_error
        rw [read_of_le (by rwa [hmod]), vecAts_error hk]
        · rfl
        · rw [Nat.mod_eq_of_lt hstart]
          omega
      · have hread : ∃ num, b.read k cast offset false = .ok num :=
          read_wrapped hoffset hk' hsum hstart (by omega)
        obtain ⟨num, hnum⟩ := hread
        apply iff_of_false
        · intro h
          have hin := (h num hnum).1
          omega
        · rintro (h | h | h)
          · omega
          · omega
          · omega

end Reader

/-- Each of the six readers, asked to check, throws or returns the number at `offset` of the view,
exactly when its sums fit. -/
theorem checked_iff (b : Buffer) {offset : ℕ} (hoffset : offset < 2 ^ 64) :
    (b.Checked true 1 offset (b.readInt8 offset false) ↔ b.SumsFit 1 offset) ∧
    (b.Checked false 1 offset (b.readUInt8 offset false) ↔ b.SumsFit 1 offset) ∧
    (b.Checked true 2 offset (b.readInt16BE offset false) ↔ b.SumsFit 2 offset) ∧
    (b.Checked false 2 offset (b.readUInt16BE offset false) ↔ b.SumsFit 2 offset) ∧
    (b.Checked true 4 offset (b.readInt32BE offset false) ↔ b.SumsFit 4 offset) ∧
    (b.Checked false 4 offset (b.readUInt32BE offset false) ↔ b.SumsFit 4 offset) := by
  refine ⟨?_, ?_, ?_, ?_, ?_, ?_⟩
  · exact checked_read_iff (by norm_num) (by norm_num) hoffset fun _ => bmod_eq_interpret
  · exact checked_read_iff (by norm_num) (by norm_num) hoffset fun _ _ => rfl
  · exact checked_read_iff (by norm_num) (by norm_num) hoffset fun _ => bmod_eq_interpret
  · exact checked_read_iff (by norm_num) (by norm_num) hoffset fun _ => mod_eq_interpret
  · exact checked_read_iff (by norm_num) (by norm_num) hoffset fun _ => bmod_eq_interpret
  · exact checked_read_iff (by norm_num) (by norm_num) hoffset fun _ => mod_eq_interpret

theorem checked_iff_sliced :
    (sliced.Checked true 1 1 (sliced.readInt8 1 false) ↔ sliced.SumsFit 1 1) ∧
    (sliced.Checked false 1 1 (sliced.readUInt8 1 false) ↔ sliced.SumsFit 1 1) ∧
    (sliced.Checked true 2 1 (sliced.readInt16BE 1 false) ↔ sliced.SumsFit 2 1) ∧
    (sliced.Checked false 2 1 (sliced.readUInt16BE 1 false) ↔ sliced.SumsFit 2 1) ∧
    (sliced.Checked true 4 1 (sliced.readInt32BE 1 false) ↔ sliced.SumsFit 4 1) ∧
    (sliced.Checked false 4 1 (sliced.readUInt32BE 1 false) ↔ sliced.SumsFit 4 1) :=
  checked_iff sliced (by decide)

/-- `readInt8(-1, false)` of the view `"cd"` of `"abcd"` returns the byte in front of the view. -/
theorem read_before_start : sliced.readInt8 (2 ^ 64 - 1) false = .ok 0x62 ∧
    ¬ sliced.Checked true 1 (2 ^ 64 - 1) (sliced.readInt8 (2 ^ 64 - 1) false) := by
  have hread : sliced.readInt8 (2 ^ 64 - 1) false = .ok 0x62 := by decide
  refine ⟨hread, fun h => ?_⟩
  exact absurd (h _ hread).1 (by decide)

end Buffer

end Dripcap
