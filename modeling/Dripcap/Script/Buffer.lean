import Dripcap.Script.Layer
import Mathlib.Data.List.TakeDrop
import Mathlib.Data.List.OfFn

/-!
# Buffers

The views of byte vectors that scripts work on, `buffer.cpp`. A pointer into a vector is the
part of the vector that begins there, so what lies behind the end of a view stays visible to
the code that is given the pointer.
-/

namespace Dripcap

/-! ### The memory functions -/

/-- A `size_t` as an `int`. -/
def int32 (n : ℕ) : ℤ := Int.bmod n (2 ^ 32)

/-- `memcmp`; both memories are at least `n` bytes long. -/
def memcmp : List UInt8 → List UInt8 → ℕ → ℤ
  | x :: p, y :: q, n + 1 => if x = y then memcmp p q n else (x.toNat : ℤ) - y.toNat
  | _, _, _ => 0

/-- The loop over `j` of `search`: the number of positions from the last of `n + j` bytes of
`sub` back to an earlier `c`; `n` bytes are left. -/
def findShift (sub : List UInt8) (c : UInt8) (j : ℕ) : ℕ → Option (Option ℕ)
  | 0 => some none
  | n + 1 => do
    if (← sub[n]?) = c then some (some j) else findShift sub c (j + 1) n

/-- The loop over `i` of `search` with `n` rounds left, that is `i = sublen - n`. -/
def searchShift (str sub : List UInt8) (sublen index shift : ℕ) : ℕ → Option ℕ
  | 0 => some shift
  | n + 1 => do
    let c ← str[index - (sublen - n)]?
    if (← sub[n]?) = c then searchShift str sub sublen index (shift - 1) n
    else match ← findShift sub c 1 n with
      | some j => some j
      | none => searchShift str sub sublen index shift n

/-- The loop over `index` of `search`. An `index` too large for an `int` is undefined
behaviour. -/
def searchFrom (str : List UInt8) (strlen : ℕ) (sub : List UInt8) (sublen index : ℕ) : Option ℤ :=
  if index ≤ strlen then
    (searchShift str sub sublen index sublen sublen).bind fun shift =>
      if shift = 0 then some (index - sublen)
      else if 2 ^ 31 ≤ index + shift then none
      else searchFrom str strlen sub sublen (index + shift)
  else some (-1)
termination_by strlen + 1 - index

/-- `search`. With a negative `sublen` the index falls until it is too small for an `int`. -/
def search (str : List UInt8) (strlen : ℤ) (sub : List UInt8) (sublen : ℤ) : Option ℤ :=
  if sublen > strlen then some (-1)
  else if sublen = 0 then some 0
  else if sublen < 0 then none
  else searchFrom str strlen.toNat sub sublen.toNat sublen.toNat

/-- `std::hex << std::setfill('0') << std::setw(2)` -/
def hexByte (b : UInt8) : String :=
  let digits := Nat.toDigits 16 b.toNat
  String.ofList (List.replicate (2 - digits.length) '0' ++ digits)

/-! ### The views -/

/-- `Buffer`: the bytes from `start` to `fin` of a vector. -/
structure Buffer where
  vec : List UInt8
  start : ℕ
  fin : ℕ
  start_le : start ≤ fin
  fin_le : fin ≤ vec.length
  size_lt : vec.length < 2 ^ 63

/-- `Payload`: a buffer with a class of its own. -/
abbrev Payload := Buffer

/-- `CustomValue` -/
abbrev CustomValue := Buffer

namespace Buffer

variable (decode : List UInt8 → String) (a b c : Buffer)

/-- `Buffer::length` -/
def length : ℕ := b.fin - b.start

/-- `Buffer::data` -/
def data : List UInt8 := b.vec.drop b.start

/-- The byte sequence a view stands for. -/
def bytes : List UInt8 := (b.vec.drop b.start).take b.length

lemma start_add_length : b.start + b.length = b.fin := by
  have := b.start_le
  unfold length
  omega

/-- `vec->at(i)` for `n` values of `i`, from `start` on. -/
def reads (n : ℕ) (h : n ≤ b.length) : List UInt8 :=
  List.ofFn fun i : Fin n => b.vec.get ⟨b.start + i, by
    have := b.start_add_length
    have := b.fin_le
    omega⟩

/-- `Buffer::get`, the index operator of scripts. -/
def get (index : ℕ) : Except String UInt8 :=
  if h : index + 1 > b.length then .error "index out of range"
  else .ok (b.vec.get ⟨index + b.start, by
    have := b.start_add_length
    have := b.fin_le
    omega⟩)

/-- `Buffer::sliceRange` -/
def sliceRange (s e : ℕ) : ℕ × ℕ :=
  (min ((b.start + s) % 2 ^ 64) b.fin, b.start + min (max s e) b.length)

/-- `Buffer::slice`. An `e` that is not given is `length()`. -/
def slice (s e : ℕ) : Buffer where
  vec := b.vec
  start := (b.sliceRange s (min e b.length)).1
  fin := (b.sliceRange s (min e b.length)).2
  start_le := by
    have hlen := b.start_add_length
    have hmod := Nat.mod_le (b.start + s) (2 ^ 64)
    simp only [sliceRange]
    omega
  fin_le := by
    have hlen := b.start_add_length
    have hle := b.fin_le
    simp only [sliceRange]
    omega
  size_lt := b.size_lt

/-- `Buffer::equals` -/
def equals : Bool := decide (b.length = c.length) && decide (memcmp c.data b.data b.length = 0)

/-- `Buffer::toString`; `decode` makes a JavaScript string of the bytes of a `std::string`. -/
def toString (type : String) : Except String String :=
  if type = "utf8" then .ok (decode (b.vec.take b.length))
  else if type = "hex" then .ok (String.join ((b.reads b.length le_rfl).map hexByte))
  else .error ("Unknown encoding: " ++ type)

/-- `valueOf` after the name of the class. -/
def preview (head : String) : String :=
  let tail := min (b.start + 16) b.fin
  let stream := (b.reads (tail - b.start) (by unfold length; omega)).map fun x => hexByte x ++ " "
  head ++ String.join stream ++ (if b.fin - b.start > 16 then "..." else "") ++ ">"

/-- `Buffer::valueOf` -/
def valueOf : String := b.preview "<Buffer "

/-- `Buffer::indexOf`. The result is `none` where `search` has none. -/
def indexOf : Option ℤ := search b.data (int32 b.length) c.data (int32 c.length)

/-- The constructor that is given a buffer. -/
def ofBuffer : Buffer where
  vec := b.data.take b.length
  start := 0
  fin := (b.data.take b.length).length
  start_le := Nat.zero_le _
  fin_le := le_rfl
  size_lt := by
    have := b.size_lt
    simp only [data, List.length_take, List.length_drop]
    omega

/-- `v8ToMsgpack` for a buffer. -/
def toMsgpack : Object := .bin (b.data.take b.length)

end Buffer

namespace Payload

variable (b : Payload)

/-- `Payload::valueOf` -/
def valueOf : String := b.preview "<Payload "

/-- `Payload::slice` -/
def slice (s e : ℕ) : Payload := Buffer.slice b s e

/-- `Payload::copy` -/
def copy : List UInt8 := b.data.take b.length

/-- `v8ToMsgpack` for a payload. -/
def toMsgpack (copied : Bool) : Object :=
  if copied then .bin b.copy else .extPacked .payload (.array [.integer b.start, .integer b.fin])

end Payload

/-- `v8ToMsgpack` for a custom value. -/
def CustomValue.toMsgpack (b : CustomValue) : Object := .ext 0x20 (b.data.take b.length)

/-! ### What the memory functions read -/

lemma int32_le (n : ℕ) : int32 n ≤ n := by
  have hmod : (n : ℤ) % ((2 ^ 32 : ℕ) : ℤ) ≤ n := by omega
  unfold int32
  rw [Int.bmod_def]
  split_ifs <;> omega

lemma memcmp_take (p q : List UInt8) (n : ℕ) : memcmp (p.take n) (q.take n) n = memcmp p q n := by
  induction n generalizing p q with
  | zero => cases p <;> cases q <;> rfl
  | succ n ih =>
    cases p with
    | nil => rfl
    | cons x p =>
      cases q with
      | nil => rfl
      | cons y q => simp only [List.take_succ_cons, memcmp, ih]

/-- `memcmp` is zero exactly for equal memories. -/
lemma memcmp_eq_zero {p q : List UInt8} (h : p.length = q.length) :
    memcmp p q p.length = 0 ↔ p = q := by
  induction p generalizing q with
  | nil =>
    cases q with
    | nil => simp [memcmp]
    | cons y q => cases h
  | cons x p ih =>
    cases q with
    | nil => cases h
    | cons y q =>
      simp only [List.length_cons, memcmp]
      split_ifs with hxy
      · rw [ih (Nat.succ.inj h), hxy]
        simp
      · have hne : (x.toNat : ℤ) - y.toNat ≠ 0 := by
          intro h0
          exact hxy (UInt8.toNat_inj.mp (by omega))
        simp [hne, hxy]

/-- Bytes behind the first `m` ones are not looked at. -/
lemma findShift_take (sub : List UInt8) (c : UInt8) {m n : ℕ} (h : n ≤ m) (j : ℕ) :
    findShift (sub.take m) c j n = findShift sub c j n := by
  induction n generalizing j with
  | zero => rfl
  | succ n ih => simp only [findShift, List.getElem?_take_of_lt (Nat.lt_of_succ_le h), ih (by omega)]

lemma searchShift_take (str sub : List UInt8) {k m sublen index n : ℕ} (hk : index ≤ k)
    (hm : sublen ≤ m) (hn : n ≤ sublen) (h0 : sublen ≤ index) (shift : ℕ) :
    searchShift (str.take k) (sub.take m) sublen index shift n =
      searchShift str sub sublen index shift n := by
  induction n generalizing shift with
  | zero => rfl
  | succ n ih =>
    have hstr : (str.take k)[index - (sublen - n)]? = str[index - (sublen - n)]? :=
      List.getElem?_take_of_lt (by omega)
    have hsub : (sub.take m)[n]? = sub[n]? := List.getElem?_take_of_lt (by omega)
    simp only [searchShift, hstr, hsub, ih (by omega), findShift_take sub _ (by omega : n ≤ m)]

lemma searchFrom_take (str sub : List UInt8) {k m strlen sublen index : ℕ} (hk : strlen ≤ k)
    (hm : sublen ≤ m) (h0 : sublen ≤ index) :
    searchFrom (str.take k) strlen (sub.take m) sublen index =
      searchFrom str strlen sub sublen index := by
  induction index using Nat.strongRecMeasure (fun index => strlen + 1 - index) with
  | ind index ih =>
    rw [searchFrom, searchFrom]
    split_ifs with hi
    · rw [searchShift_take str sub (hi.trans hk) hm le_rfl h0]
      refine congrArg _ (funext fun shift => ?_)
      split_ifs with hs hbig
      · rfl
      · rfl
      · exact ih _ (by omega) (by omega)
    · rfl

/-- `search` sees the first `strlen` bytes of `str` and the first `sublen` bytes of `sub`. -/
lemma search_take (str sub : List UInt8) {k m : ℕ} {strlen sublen : ℤ} (hk : strlen ≤ k)
    (hm : sublen ≤ m) :
    search (str.take k) strlen (sub.take m) sublen = search str strlen sub sublen := by
  unfold search
  split_ifs with h1 h2 h3
  · rfl
  · rfl
  · rfl
  · exact searchFrom_take str sub (by omega) (by omega) le_rfl

/-! ### The observers as functions of the bytes -/

namespace Buffer

variable (decode : List UInt8 → String) (a b c : Buffer)

lemma length_data : b.length ≤ b.data.length := by
  have hfin := b.fin_le
  simp only [length, data, List.length_drop]
  omega

lemma take_data : b.data.take b.length = b.bytes := rfl

@[simp] lemma length_bytes : b.bytes.length = b.length := by
  rw [← take_data, List.length_take, min_eq_left b.length_data]

lemma reads_eq {n : ℕ} (h : n ≤ b.length) : b.reads n h = b.bytes.take n := by
  refine List.ext_getElem ?_ fun i hi _ => ?_
  · simp [reads, h]
  · simp [reads, bytes]

lemma get_eq (index : ℕ) : b.get index =
    if h : index < b.bytes.length then .ok b.bytes[index] else .error "index out of range" := by
  unfold get
  by_cases h : index < b.length
  · rw [dif_neg (by omega), dif_pos (by simpa using h)]
    simp [bytes, Nat.add_comm]
  · rw [dif_pos (by omega), dif_neg (by simpa using h)]

/-- `equals` compares the bytes. -/
lemma equals_iff : b.equals c = true ↔ b.bytes = c.bytes := by
  simp only [equals, Bool.and_eq_true, decide_eq_true_eq]
  constructor
  · rintro ⟨hlen, hcmp⟩
    rw [← memcmp_take, hlen, take_data, ← hlen, take_data, ← length_bytes b] at hcmp
    exact ((memcmp_eq_zero (by simp [hlen])).mp (by simpa [hlen] using hcmp)).symm
  · intro h
    have hlen : b.length = c.length := by rw [← length_bytes, h, length_bytes]
    refine ⟨hlen, ?_⟩
    rw [← memcmp_take, take_data, h, hlen, take_data, ← length_bytes c]
    exact (memcmp_eq_zero rfl).mpr rfl

lemma indexOf_eq : b.indexOf c =
    search b.bytes (int32 b.bytes.length) c.bytes (int32 c.bytes.length) := by
  rw [length_bytes, length_bytes, ← take_data, ← take_data]
  exact (search_take _ _ (int32_le _) (int32_le _)).symm

lemma toString_hex : b.toString decode "hex" = .ok (String.join (b.bytes.map hexByte)) := by
  have htake : b.bytes.take b.length = b.bytes := List.take_of_length_le b.length_bytes.le
  simp [toString, reads_eq, htake]

lemma preview_eq (head : String) : b.preview head = head ++
    String.join ((b.bytes.take 16).map fun x => hexByte x ++ " ") ++
    (if b.bytes.length > 16 then "..." else "") ++ ">" := by
  have htail : b.bytes.take (min (b.start + 16) b.fin - b.start) = b.bytes.take 16 := by
    refine List.take_eq_take_iff.mpr ?_
    have := b.start_add_length
    rw [length_bytes]
    omega
  simp only [preview, reads_eq, htail, length_bytes, length]

/-- A slice inside the view is a slice of the bytes. -/
lemma slice_bytes {s e : ℕ} (hs : s ≤ b.length) (he : e ≤ b.length) :
    (b.slice s e).bytes = (b.bytes.drop s).take (e - s) := by
  have hlen := b.start_add_length
  have hfin := b.fin_le
  have hsize := b.size_lt
  have hmod : (b.start + s) % 2 ^ 64 = b.start + s := Nat.mod_eq_of_lt (by omega)
  have hstart : (b.slice s e).start = b.start + s := by
    simp only [slice, sliceRange, hmod]
    omega
  have hlength : (b.slice s e).length = e - s := by
    rw [length, hstart]
    simp only [slice, sliceRange]
    omega
  have hvec : (b.slice s e).vec = b.vec := rfl
  rw [bytes, bytes, hvec, hstart, hlength, List.drop_take, List.take_take, List.drop_drop,
    min_eq_left (by omega)]

/-! ### Views of the same bytes -/

/-- No observer tells two views apart; `decode` is the UTF-8 decoder of the script engine. -/
structure Indistinguishable : Prop where
  length : a.length = b.length
  get : ∀ index, a.get index = b.get index
  equals : ∀ c : Buffer, a.equals c = b.equals c ∧ c.equals a = c.equals b
  indexOf : ∀ c : Buffer, a.indexOf c = b.indexOf c ∧ c.indexOf a = c.indexOf b
  utf8 : a.toString decode "utf8" = b.toString decode "utf8"
  hex : a.toString decode "hex" = b.toString decode "hex"
  valueOf : a.valueOf = b.valueOf ∧ Payload.valueOf a = Payload.valueOf b
  copied : a.ofBuffer = b.ofBuffer ∧ Payload.copy a = Payload.copy b
  msgpack : a.toMsgpack = b.toMsgpack ∧ Payload.toMsgpack a true = Payload.toMsgpack b true ∧
    CustomValue.toMsgpack a = CustomValue.toMsgpack b
  slice : ∀ s e, s ≤ a.length → e ≤ a.length → (a.slice s e).bytes = (b.slice s e).bytes ∧
    (Payload.slice a s e).bytes = (Payload.slice b s e).bytes

variable {decode a b}

/-- Views of the same bytes are told apart by nothing but `toString('utf8')`, which reads the
vector from its beginning. -/
lemma indistinguishable_iff_utf8 (h : a.bytes = b.bytes) :
    Indistinguishable decode a b ↔ decode (a.vec.take a.length) = decode (b.vec.take b.length) := by
  have hlen : a.length = b.length := by rw [← length_bytes, h, length_bytes]
  have htake : a.data.take a.length = b.data.take b.length := h
  have hequals : ∀ c : Buffer, a.equals c = b.equals c ∧ c.equals a = c.equals b := by
    intro c
    constructor
    · rw [Bool.eq_iff_iff, equals_iff, equals_iff, h]
    · rw [Bool.eq_iff_iff, equals_iff, equals_iff, h]
  constructor
  · intro hind
    simpa [toString] using hind.utf8
  · intro hdecode
    exact {
      length := hlen
      get := fun index => by simp only [get_eq, h]
      equals := hequals
      indexOf := fun c => by simp only [indexOf_eq, h, and_self]
      utf8 := by simp [toString, hdecode]
      hex := by simp only [toString_hex, h]
      valueOf := by simp only [valueOf, Payload.valueOf, preview_eq, h, and_self]
      copied := by simp only [ofBuffer, Payload.copy, htake, and_self]
      msgpack := by
        simp only [toMsgpack, Payload.toMsgpack, CustomValue.toMsgpack, Payload.copy, htake, if_true,
          and_self]
      slice := fun s e hs he => by
        simp only [Payload.slice, slice_bytes a hs he, slice_bytes b (hlen ▸ hs) (hlen ▸ he), h,
          and_self] }

/-- No decoder tells two views of the same bytes apart exactly when their vectors begin with the
same bytes, as many as the views have. A given decoder must read the same text there. -/
theorem indistinguishable_iff (h : a.bytes = b.bytes) :
    (Indistinguishable decode a b ↔
      decode (a.vec.take a.length) = decode (b.vec.take b.length)) ∧
    ((∀ decode, Indistinguishable decode a b) ↔ a.vec.take a.length = b.vec.take b.length) := by
  refine ⟨indistinguishable_iff_utf8 h, fun hall => ?_, fun heq decode => ?_⟩
  · by_contra hne
    have htext := (indistinguishable_iff_utf8 h).mp
      (hall fun bytes => if bytes = a.vec.take a.length then "a" else "b")
    rw [if_pos rfl, if_neg (Ne.symm hne)] at htext
    exact absurd htext (by decide)
  · exact (indistinguishable_iff_utf8 h).mpr (by rw [heq])

/-- The text of bytes that are all ASCII characters. -/
def asciiText (bytes : List UInt8) : String := String.ofList (bytes.map fun x => Char.ofNat x.toNat)

/-- The view `"cd"` of the vector `"abcd"`. -/
def sliced : Buffer := ⟨[0x61, 0x62, 0x63, 0x64], 2, 4, by decide, by decide, by decide⟩

/-- The view `"cd"` of the vector `"cd"`. -/
def whole : Buffer := ⟨[0x63, 0x64], 0, 2, by decide, by decide, by decide⟩

theorem indistinguishable_iff_sliced :
    sliced.bytes = whole.bytes ∧ ((Indistinguishable asciiText sliced whole ↔
      asciiText (sliced.vec.take sliced.length) = asciiText (whole.vec.take whole.length)) ∧
    ((∀ decode, Indistinguishable decode sliced whole) ↔
      sliced.vec.take sliced.length = whole.vec.take whole.length)) :=
  ⟨by decide, indistinguishable_iff (by decide)⟩

/-- The slice reads as `"ab"`. -/
theorem slice_distinguished : sliced.bytes = whole.bytes ∧
    sliced.toString asciiText "utf8" = .ok "ab" ∧ whole.toString asciiText "utf8" = .ok "cd" ∧
    ¬ Indistinguishable asciiText sliced whole := by
  refine ⟨by decide, by decide, by decide, fun h => ?_⟩
  exact absurd h.utf8 (by decide)

end Buffer

end Dripcap
