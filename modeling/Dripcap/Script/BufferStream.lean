import Dripcap.Library.LittleEndian
import Dripcap.Library.Run
import Mathlib.Logic.Function.Basic
import Mathlib.Algebra.BigOperators.Group.List.Basic
import Mathlib.Data.List.ReduceOption

/-!
# Streams in the database

`BufferStream` of `buffer_stream.cpp` and the two functions of the dispatcher that read its
entries. A stream has one entry for every chunk and two counters, all of them in one database
with the entries of all other streams. `write` performs up to five operations on the database,
and other calls may come between any two of them. RocksDB is taken to be a correct map.

Indices and counters are natural numbers.
-/

namespace Dripcap

namespace BufferStream

/-! ### Ids and keys -/

/-- `0`..`9` or `a`..`f` -/
def HexDigit (c : UInt8) : Prop := (0x30 ≤ c ∧ c ≤ 0x39) ∨ (0x61 ≤ c ∧ c ≤ 0x66)

instance (c : UInt8) : Decidable (HexDigit c) := by
  unfold HexDigit
  infer_instance

/-- The id of a stream as it is generated. -/
abbrev StreamID := {chars : List UInt8 // chars.length = 36 ∧ ∀ c ∈ chars, HexDigit c}

/-- `std::hex` for one digit -/
def hexDigit (n : ℕ) : UInt8 := if n < 10 then 0x30 + .ofNat n else 0x61 + .ofNat (n - 10)

lemma hexDigit_hex : ∀ n < 16, HexDigit (hexDigit n) := by decide

/-- `Private::Private` with the numbers drawn for an empty id. -/
def generate (drawn : Fin 18 → ℕ) : StreamID :=
  ⟨(List.ofFn drawn).flatMap fun n => [hexDigit (n % 256 / 16), hexDigit (n % 256 % 16)], by
    refine ⟨by simp, fun c hc => ?_⟩
    obtain ⟨n, -, hc⟩ := List.mem_flatMap.mp hc
    have hhigh := hexDigit_hex (n % 256 / 16) (by omega)
    have hlow := hexDigit_hex (n % 256 % 16) (by omega)
    simp only [List.mem_cons, List.not_mem_nil, or_false] at hc
    rcases hc with rfl | rfl
    · exact hhigh
    · exact hlow⟩

/-- `sizeof(uint64_t)` bytes in memory -/
def uint64 (n : ℕ) : List UInt8 := LittleEndian.bytes 8 n

/-- The entries of a stream. -/
inductive Key where
  | chunk (id : StreamID) (index : ℕ)
  | chunks (id : StreamID)
  | length (id : StreamID)
  deriving DecidableEq

/-- `indexID` -/
def indexID (id : StreamID) (index : ℕ) : List UInt8 := uint64 index ++ id.1

/-- `".chunks"` -/
def chunksSuffix : List UInt8 := [0x2e, 0x63, 0x68, 0x75, 0x6e, 0x6b, 0x73]

/-- `".length"` -/
def lengthSuffix : List UInt8 := [0x2e, 0x6c, 0x65, 0x6e, 0x67, 0x74, 0x68]

/-- The stream of an entry. -/
def Key.id : Key → StreamID
  | .chunk id _ => id
  | .chunks id => id
  | .length id => id

/-- The key of an entry in the database. -/
def Key.bytes : Key → List UInt8
  | .chunk id index => indexID id index
  | .chunks id => id.1 ++ chunksSuffix
  | .length id => id.1 ++ lengthSuffix

lemma suffix_ne : chunksSuffix ≠ lengthSuffix := by decide

/-- The key of a chunk is longer than the keys of the counters. -/
lemma length_indexID (id : StreamID) (index : ℕ) : 44 ≤ (indexID id index).length := by
  have hindex := LittleEndian.le_length_bytes 8 index
  rw [indexID, List.length_append, id.2.1, uint64]
  omega

lemma indexID_ne {id id' : StreamID} {index : ℕ} {suffix : List UInt8} (h : suffix.length = 7) :
    indexID id index ≠ id'.1 ++ suffix := by
  intro heq
  have hlong := length_indexID id index
  rw [heq, List.length_append, id'.2.1, h] at hlong
  omega

/-- No two entries share a key, of whatever streams they are. -/
theorem Key.bytes_injective : Function.Injective Key.bytes := by
  intro k k' h
  cases k with
  | chunk id index =>
    cases k' with
    | chunk id' index' =>
      obtain ⟨hindex, hid⟩ := List.append_inj' h (id.2.1.trans id'.2.1.symm)
      rw [LittleEndian.bytes_injective 8 hindex, Subtype.ext hid]
    | chunks id' => exact absurd h (indexID_ne rfl)
    | length id' => exact absurd h (indexID_ne rfl)
  | chunks id =>
    cases k' with
    | chunk id' index' => exact absurd h.symm (indexID_ne rfl)
    | chunks id' => rw [Subtype.ext (List.append_inj' h rfl).1]
    | length id' => exact absurd (List.append_inj' h rfl).2 suffix_ne
  | length id =>
    cases k' with
    | chunk id' index' => exact absurd h.symm (indexID_ne rfl)
    | chunks id' => exact absurd (List.append_inj' h rfl).2 suffix_ne.symm
    | length id' => rw [Subtype.ext (List.append_inj' h rfl).1]

/-! ### The calls -/

/-- A `BufferStream` object. -/
structure Handle where
  id : StreamID
  index : ℕ := 0

/-- A call of `write` between two operations on the database, by the one that comes next. The
argument is `none` if it is not a `Buffer`. -/
inductive Write where
  | length (arg : Option (List UInt8)) (chunks : ℕ)
  | put (buffer : List UInt8) (chunks length : ℕ)
  | setChunks (chunks length : ℕ)
  | setLength (length : ℕ)

/-- The database, the `BufferStream` objects, and for every stream the call of `write` that is in
progress. -/
structure State where
  db : List UInt8 → Option (List UInt8) := fun _ => none
  handles : ℕ → Option Handle := fun _ => none
  writers : StreamID → Option Write := fun _ => none

inductive Event where
  /-- an object is made for a new stream or for the id of a stream -/
  | make (h : ℕ) (id : StreamID)
  /-- `write` is called and reads the number of chunks -/
  | write (h : ℕ) (arg : Option (List UInt8))
  /-- the next operation of the call that writes to a stream -/
  | next (id : StreamID)
  | read (h : ℕ)
  | readStream (id : StreamID) (index : ℕ)
  | streamLength (id : StreamID)

namespace State

/-- `db->Put` -/
def put (s : State) (k : Key) (value : List UInt8) : State :=
  { s with db := Function.update s.db k.bytes (some value) }

def setWriter (s : State) (id : StreamID) (w : Option Write) : State :=
  { s with writers := Function.update s.writers id w }

/-- A counter of a stream; one that is missing or has not `sizeof(uint64_t)` bytes is zero. Only
numbers that no `uint64_t` holds have more bytes, since counters do not wrap here. -/
def counter (s : State) (k : Key) : ℕ :=
  match s.db k.bytes with
  | some value =>
    let number := LittleEndian.value value
    if value.length = 8 ∨ 2 ^ 64 ≤ number then number else 0
  | none => 0

/-- `Private::chunks` -/
def chunks (s : State) (id : StreamID) : ℕ := s.counter (.chunks id)

/-- `Private::length` and `Dispatcher::streamLength` -/
def length (s : State) (id : StreamID) : ℕ := s.counter (.length id)

/-- `Dispatcher::readStream` -/
def readStream (s : State) (id : StreamID) (index : ℕ) : List UInt8 :=
  (s.db (indexID id index)).getD []

/-- The result of `read`. -/
def readResult (s : State) (x : Handle) : Option (List UInt8) := s.db (indexID x.id x.index)

/-- `read`: the object goes on to the next chunk if there has been one. -/
def read (s : State) (h : ℕ) (x : Handle) : State :=
  if (s.readResult x).isSome then
    { s with handles := Function.update s.handles h (some { x with index := x.index + 1 }) }
  else s

/-- An operation of `write` and what follows it up to the next one. -/
def perform (s : State) (id : StreamID) : Write → State
  | .length none _ => s.setWriter id none
  | .length (some buffer) chunks =>
    if buffer.length > 0 then s.setWriter id (some (.put buffer chunks (s.length id)))
    else s.setWriter id (some (.setChunks chunks (s.length id)))
  | .put buffer chunks length =>
    (s.put (.chunk id chunks) buffer).setWriter id
      (some (.setChunks (chunks + 1) (length + buffer.length)))
  | .setChunks chunks length =>
    (s.put (.chunks id) (uint64 chunks)).setWriter id (some (.setLength length))
  | .setLength length => (s.put (.length id) (uint64 length)).setWriter id none

/-- Of two calls of `write` for one stream the second one begins when the first one has ended. -/
def step (s : State) : Event → Option State
  | .make h id =>
    if (s.handles h).isSome then none
    else some { s with handles := Function.update s.handles h (some { id := id }) }
  | .write h arg =>
    match s.handles h with
    | none => none
    | some x =>
      if (s.writers x.id).isSome then none
      else some (s.setWriter x.id (some (.length arg (s.chunks x.id))))
  | .next id =>
    match s.writers id with
    | none => none
    | some w => some (s.perform id w)
  | .read h =>
    match s.handles h with
    | none => none
    | some x => some (s.read h x)
  | .readStream _ _ => some s
  | .streamLength _ => some s

/-! ### Operations on the database -/

variable {s s' : State} {id : StreamID} {chunks : List (List UInt8)} {e : Event}

lemma put_db (s : State) (k k' : Key) (value : List UInt8) :
    (s.put k value).db k'.bytes = if k' = k then some value else s.db k'.bytes := by
  simp only [put, Function.update_apply, Key.bytes_injective.eq_iff]

@[simp] lemma put_writers (s : State) (k : Key) (value : List UInt8) :
    (s.put k value).writers = s.writers := rfl

@[simp] lemma put_handles (s : State) (k : Key) (value : List UInt8) :
    (s.put k value).handles = s.handles := rfl

@[simp] lemma setWriter_db (s : State) (id : StreamID) (w : Option Write) :
    (s.setWriter id w).db = s.db := rfl

@[simp] lemma setWriter_handles (s : State) (id : StreamID) (w : Option Write) :
    (s.setWriter id w).handles = s.handles := rfl

@[simp] lemma setWriter_counter (s : State) (id : StreamID) (w : Option Write) (k : Key) :
    (s.setWriter id w).counter k = s.counter k := rfl

lemma setWriter_writers (s : State) (id id' : StreamID) (w : Option Write) :
    (s.setWriter id w).writers id' = if id' = id then w else s.writers id' := by
  simp only [setWriter, Function.update_apply]

/-- A counter is read back as it has been written. -/
lemma counter_put (s : State) (k k' : Key) (n : ℕ) :
    (s.put k (uint64 n)).counter k' = if k' = k then n else s.counter k' := by
  simp only [counter, put_db]
  split_ifs with hk
  · have hvalue : LittleEndian.value (uint64 n) = n := LittleEndian.value_bytes 8 n
    have hlen : (uint64 n).length = 8 ∨ 2 ^ 64 ≤ n := by
      rcases Nat.lt_or_ge n (2 ^ 64) with hn | hn
      · exact Or.inl (LittleEndian.length_bytes hn)
      · exact Or.inr hn
    simp only [hvalue, if_pos hlen]
  · rfl

/-- Storing a chunk leaves all counters alone. -/
lemma counter_put_chunk (s : State) (id : StreamID) (index : ℕ) (value : List UInt8) (k : Key)
    (hk : ∀ i, k ≠ .chunk id i) : (s.put (.chunk id index) value).counter k = s.counter k := by
  simp only [counter, put_db, if_neg (hk index)]

/-- An operation of a writer concerns the entries of its own stream. -/
lemma perform_db (s : State) {id : StreamID} (w : Write) {k : Key} (hk : k.id ≠ id) :
    (s.perform id w).db k.bytes = s.db k.bytes := by
  have hput : ∀ k' value, k'.id = id → (s.put k' value).db k.bytes = s.db k.bytes := by
    intro k' value hk'
    rw [put_db, if_neg]
    rintro rfl
    exact hk hk'
  cases w with
  | length arg n =>
    cases arg with
    | none => rfl
    | some buffer =>
      rw [perform]
      split_ifs
      · rfl
      · rfl
  | put buffer n l => exact hput (.chunk id n) buffer rfl
  | setChunks n l => exact hput (.chunks id) (uint64 n) rfl
  | setLength l => exact hput (.length id) (uint64 l) rfl

lemma perform_writers (s : State) {id id' : StreamID} (w : Write) (hid : id' ≠ id) :
    (s.perform id w).writers id' = s.writers id' := by
  cases w with
  | length arg n =>
    cases arg with
    | none => exact Function.update_of_ne hid _ _
    | some buffer =>
      rw [perform]
      split_ifs
      · exact Function.update_of_ne hid _ _
      · exact Function.update_of_ne hid _ _
  | put buffer n l => exact Function.update_of_ne hid _ _
  | setChunks n l => exact Function.update_of_ne hid _ _
  | setLength l => exact Function.update_of_ne hid _ _

lemma perform_handles (s : State) (id : StreamID) (w : Write) :
    (s.perform id w).handles = s.handles := by
  cases w with
  | length arg n =>
    cases arg with
    | none => rfl
    | some buffer =>
      rw [perform]
      split_ifs
      · rfl
      · rfl
  | put buffer n l => rfl
  | setChunks n l => rfl
  | setLength l => rfl

/-! ### What a stream holds -/

/-- The size of all chunks. -/
def total (chunks : List (List UInt8)) : ℕ := (chunks.map List.length).sum

lemma total_concat (chunks : List (List UInt8)) (chunk : List UInt8) :
    total (chunks ++ [chunk]) = total chunks + chunk.length := by
  simp [total]

/-- Where a writer is, for a stream with these chunks and counters. The chunk is stored before
the counters are, and the number of chunks before the length. -/
def Agrees (chunks : List (List UInt8)) (count length : ℕ) : Option Write → Prop
  | none => count = chunks.length ∧ length = total chunks
  | some (.length _ n) =>
    n = chunks.length ∧ count = chunks.length ∧ length = total chunks
  | some (.put buffer n l) =>
    buffer ≠ [] ∧ n = chunks.length ∧ l = total chunks ∧ length = total chunks
  | some (.setChunks n l) => n = chunks.length ∧ l = total chunks ∧ length ≤ total chunks
  | some (.setLength l) => l = total chunks ∧ count = chunks.length ∧ length ≤ total chunks

/-- The stream has these chunks. -/
structure Holds (s : State) (id : StreamID) (chunks : List (List UInt8)) : Prop where
  stored : ∀ i, s.db (indexID id i) = chunks[i]?
  nonempty : ∀ chunk ∈ chunks, chunk ≠ []
  writer : Agrees chunks (s.chunks id) (s.length id) (s.writers id)

/-- Only the entries of the stream and its writer matter. -/
lemma Holds.congr (h : s.Holds id chunks)
    (hdb : ∀ k : Key, k.id = id → s'.db k.bytes = s.db k.bytes)
    (hw : s'.writers id = s.writers id) : s'.Holds id chunks where
  stored i := (hdb (.chunk id i) rfl).trans (h.stored i)
  nonempty := h.nonempty
  writer := by
    have hchunks : s'.chunks id = s.chunks id := by
      simp only [State.chunks, counter, hdb (.chunks id) rfl]
    have hlength : s'.length id = s.length id := by
      simp only [State.length, counter, hdb (.length id) rfl]
    rw [hchunks, hlength, hw]
    exact h.writer

lemma holds_init : ({} : State).Holds id [] where
  stored i := rfl
  nonempty := by simp
  writer := ⟨rfl, rfl⟩

/-- The length is never ahead of the chunks, and behind them only during a call. -/
lemma Holds.length_le (h : s.Holds id chunks) :
    s.length id ≤ total chunks ∧ (s.writers id = none → s.length id = total chunks) := by
  have hw := h.writer
  cases hwr : s.writers id with
  | none =>
    rw [hwr] at hw
    exact ⟨hw.2.le, fun _ => hw.2⟩
  | some w =>
    rw [hwr] at hw
    refine ⟨?_, fun hne => absurd hne (by simp)⟩
    cases w with
    | length arg n => exact hw.2.2.le
    | put buffer n l => exact hw.2.2.2.le
    | setChunks n l => exact hw.2.2
    | setLength l => exact hw.2.2

/-- The chunk that a step stores for a stream. -/
def appended (id : StreamID) (s : State) (e : Event) (_ : State) : List (List UInt8) :=
  match e with
  | .next id' =>
    match s.writers id' with
    | some (.put buffer _ _) => if id' = id then [buffer] else []
    | _ => []
  | _ => []

lemma appended_other {id' : StreamID} (hid : id' ≠ id) : appended id s (.next id') s' = [] := by
  simp only [appended]
  split
  · rw [if_neg hid]
  · rfl

/-- A value under another key leaves the chunks. -/
lemma Holds.put_stored (h : s.Holds id chunks) {k : Key} (hk : ∀ i, Key.chunk id i ≠ k)
    (value : List UInt8) (i : ℕ) : (s.put k value).db (indexID id i) = chunks[i]? := by
  have hdb := s.put_db k (.chunk id i) value
  rw [if_neg (hk i)] at hdb
  exact hdb.trans (h.stored i)

/-- The next operation of the stream's own writer. -/
lemma Holds.perform (h : s.Holds id chunks) {w : Write} (hw : s.writers id = some w) :
    (s.perform id w).Holds id (chunks ++ appended id s (.next id) (s.perform id w)) := by
  have hself : ∀ (s' : State) (w' : Option Write), (s'.setWriter id w').writers id = w' :=
    fun s' w' => Function.update_self _ _ _
  have hagrees := h.writer
  rw [hw] at hagrees
  cases w with
  | length arg n =>
    simp only [appended, hw, List.append_nil]
    cases arg with
    | none => exact ⟨h.stored, h.nonempty, by rw [State.perform, hself]; exact hagrees.2⟩
    | some buffer =>
      rw [State.perform]
      split_ifs with hpos
      · refine ⟨h.stored, h.nonempty, ?_⟩
        rw [hself]
        exact ⟨List.ne_nil_of_length_pos hpos, hagrees.1, hagrees.2.2, hagrees.2.2⟩
      · refine ⟨h.stored, h.nonempty, ?_⟩
        rw [hself]
        exact ⟨hagrees.1, hagrees.2.2, hagrees.2.2.le⟩
  | put buffer n l =>
    obtain ⟨hbuffer, hn, hl, hlength⟩ := hagrees
    simp only [appended, hw, if_true, State.perform]
    refine ⟨fun i => ?_, fun chunk hchunk => ?_, ?_⟩
    · have hdb := s.put_db (.chunk id n) (.chunk id i) buffer
      simp only [Key.bytes, Key.chunk.injEq, true_and, h.stored] at hdb
      rw [setWriter_db, hdb, hn, List.getElem?_append]
      split_ifs with hi hlt hlt
      · omega
      · simp [hi]
      · rfl
      · rw [List.getElem?_eq_none (by omega), List.getElem?_eq_none (by simp; omega)]
    · rcases List.mem_append.mp hchunk with hchunk | hchunk
      · exact h.nonempty chunk hchunk
      · rw [List.mem_singleton.mp hchunk]
        exact hbuffer
    · rw [hself]
      refine ⟨by simp [hn], by rw [hl, total_concat], ?_⟩
      show (s.put (.chunk id n) buffer).counter (.length id) ≤ _
      rw [counter_put_chunk s id n buffer _ (by simp), total_concat]
      exact hlength.le.trans (Nat.le_add_right _ _)
  | setChunks n l =>
    obtain ⟨hn, hl, hlength⟩ := hagrees
    simp only [appended, hw, List.append_nil, State.perform]
    refine ⟨h.put_stored (by simp) (uint64 n), h.nonempty, ?_⟩
    rw [hself]
    refine ⟨hl, ?_, ?_⟩
    · show (s.put (.chunks id) (uint64 n)).counter (.chunks id) = _
      rw [counter_put, if_pos rfl, hn]
    · show (s.put (.chunks id) (uint64 n)).counter (.length id) ≤ _
      rw [counter_put, if_neg (by simp)]
      exact hlength
  | setLength l =>
    obtain ⟨hl, hcount, -⟩ := hagrees
    simp only [appended, hw, List.append_nil, State.perform]
    refine ⟨h.put_stored (by simp) (uint64 l), h.nonempty, ?_⟩
    rw [hself]
    refine ⟨?_, ?_⟩
    · show (s.put (.length id) (uint64 l)).counter (.chunks id) = _
      rw [counter_put, if_neg (by simp)]
      exact hcount
    · show (s.put (.length id) (uint64 l)).counter (.length id) = _
      rw [counter_put, if_pos rfl, hl]

lemma read_db (s : State) (h : ℕ) (x : Handle) : (s.read h x).db = s.db := by
  rw [read]
  split_ifs
  · rfl
  · rfl

lemma read_writers (s : State) (h : ℕ) (x : Handle) : (s.read h x).writers = s.writers := by
  rw [read]
  split_ifs
  · rfl
  · rfl

lemma read_handles (s : State) {h : ℕ} {x : Handle} (hx : s.handles h = some x) (h' : ℕ) :
    (s.read h x).handles h' = if h' = h then
      some (if (s.readResult x).isSome then { x with index := x.index + 1 } else x)
      else s.handles h' := by
  rw [read]
  split_ifs with hsome hh hh
  · rw [hh]
    exact Function.update_self _ _ _
  · exact Function.update_of_ne hh _ _
  · rw [hh, hx]
  · rfl

/-! ### The steps -/

lemma make_cases {h : ℕ} (hs : s.step (.make h id) = some s') : s.handles h = none ∧
    s' = { s with handles := Function.update s.handles h (some { id := id }) } := by
  simp only [step] at hs
  split_ifs at hs with hsome
  exact ⟨by simpa using hsome, (Option.some.inj hs).symm⟩

lemma write_cases {h : ℕ} {arg : Option (List UInt8)} (hs : s.step (.write h arg) = some s') :
    ∃ x, s.handles h = some x ∧ s.writers x.id = none ∧
      s' = s.setWriter x.id (some (.length arg (s.chunks x.id))) := by
  simp only [step] at hs
  split at hs
  · cases hs
  · rename_i x hx
    split_ifs at hs with hsome
    exact ⟨x, hx, by simpa using hsome, (Option.some.inj hs).symm⟩

lemma next_cases (hs : s.step (.next id) = some s') :
    ∃ w, s.writers id = some w ∧ s' = s.perform id w := by
  simp only [step] at hs
  split at hs
  · cases hs
  · rename_i w hw
    exact ⟨w, hw, (Option.some.inj hs).symm⟩

lemma read_cases {h : ℕ} (hs : s.step (.read h) = some s') :
    ∃ x, s.handles h = some x ∧ s' = s.read h x := by
  simp only [step] at hs
  split at hs
  · cases hs
  · rename_i x hx
    exact ⟨x, hx, (Option.some.inj hs).symm⟩

/-- Every step adds to the chunks of a stream what it stores for it. -/
theorem Holds.step (h : s.Holds id chunks) (hs : s.step e = some s') :
    s'.Holds id (chunks ++ appended id s e s') := by
  cases e with
  | make n id' =>
    obtain ⟨-, rfl⟩ := make_cases hs
    simp only [appended, List.append_nil]
    exact h.congr (fun _ _ => rfl) rfl
  | write n arg =>
    obtain ⟨x, -, hidle, rfl⟩ := write_cases hs
    simp only [appended, List.append_nil]
    by_cases hid : id = x.id
    · subst hid
      have hw := h.writer
      rw [hidle] at hw
      refine ⟨h.stored, h.nonempty, ?_⟩
      rw [setWriter_writers, if_pos rfl]
      exact ⟨hw.1, hw.1, hw.2⟩
    · refine h.congr (fun _ _ => rfl) ?_
      rw [setWriter_writers, if_neg hid]
  | next id' =>
    obtain ⟨w, hw, rfl⟩ := next_cases hs
    by_cases hid : id' = id
    · subst hid
      exact h.perform hw
    · rw [appended_other hid, List.append_nil]
      apply h.congr
      · rintro k rfl
        exact s.perform_db w (Ne.symm hid)
      · exact s.perform_writers w (Ne.symm hid)
  | read n =>
    obtain ⟨x, -, rfl⟩ := read_cases hs
    simp only [appended, List.append_nil]
    refine h.congr (fun k _ => ?_) ?_
    · rw [read_db]
    · rw [read_writers]
  | readStream id' index =>
    obtain rfl := Option.some.inj hs
    simpa only [appended, List.append_nil] using h
  | streamLength id' =>
    obtain rfl := Option.some.inj hs
    simpa only [appended, List.append_nil] using h

/-! ### What has been written and read -/

/-- The non-empty buffer that a call of `write` is given for a stream. -/
def written (id : StreamID) (s : State) (e : Event) (_ : State) : List (List UInt8) :=
  match e with
  | .write h (some buffer) =>
    match s.handles h with
    | some x => if x.id = id ∧ buffer ≠ [] then [buffer] else []
    | none => []
  | _ => []

/-- What a call of `read` returns to an object. -/
def results (h : ℕ) (s : State) (e : Event) (_ : State) : List (Option (List UInt8)) :=
  match e with
  | .read h' => if h' = h then (s.handles h).toList.map s.readResult else []
  | _ => []

/-- The buffer that the present call of `write` has still to store. -/
def pending (s : State) (id : StreamID) : List (List UInt8) :=
  match s.writers id with
  | some (.length (some buffer) _) => if buffer = [] then [] else [buffer]
  | some (.put buffer _ _) => [buffer]
  | _ => []

/-- A buffer is pending from the beginning of the call until its chunk is stored. -/
lemma pending_step (hs : s.step e = some s') :
    s.pending id ++ written id s e s' = appended id s e s' ++ s'.pending id := by
  cases e with
  | make n id' =>
    obtain ⟨-, rfl⟩ := make_cases hs
    simp [written, appended, pending]
  | write n arg =>
    obtain ⟨x, hx, hidle, rfl⟩ := write_cases hs
    by_cases hid : id = x.id
    · subst hid
      cases arg with
      | none => simp [written, appended, pending, setWriter_writers, hidle]
      | some buffer =>
        simp only [written, appended, pending, setWriter_writers, hidle, hx, if_true, true_and,
          List.nil_append]
        split_ifs <;> simp_all
    · have hne : ¬ x.id = id := fun heq => hid heq.symm
      cases arg with
      | none => simp [written, appended, pending, setWriter_writers, hid]
      | some buffer => simp [written, appended, pending, setWriter_writers, hid, hne, hx]
  | next id' =>
    obtain ⟨w, hw, rfl⟩ := next_cases hs
    simp only [written, List.append_nil]
    by_cases hid : id' = id
    · subst hid
      cases w with
      | length arg n =>
        cases arg with
        | none => simp [appended, pending, hw, perform, setWriter_writers]
        | some buffer =>
          rw [perform]
          cases buffer with
          | nil => simp [appended, pending, hw, setWriter_writers]
          | cons b bs => simp [appended, pending, hw, setWriter_writers]
      | put buffer n l => simp [appended, pending, hw, perform, setWriter_writers]
      | setChunks n l => simp [appended, pending, hw, perform, setWriter_writers]
      | setLength l => simp [appended, pending, hw, perform, setWriter_writers]
    · rw [appended_other hid, List.nil_append, pending, pending, s.perform_writers w (Ne.symm hid)]
  | read n =>
    obtain ⟨x, -, rfl⟩ := read_cases hs
    simp [written, appended, pending, read_writers]
  | readStream id' index =>
    obtain rfl := Option.some.inj hs
    simp [written, appended]
  | streamLength id' =>
    obtain rfl := Option.some.inj hs
    simp [written, appended]

end State

/-! ### What the objects read -/

/-- An object that has returned these results has read a prefix of the chunks. -/
structure Handle.Reads (x : Handle) (rs : List (Option (List UInt8)))
    (chunks : List (List UInt8)) : Prop where
  index_le : x.index ≤ chunks.length
  results : rs.reduceOption = chunks.take x.index

variable {x : Handle} {rs : List (Option (List UInt8))} {chunks : List (List UInt8)}

lemma Handle.Reads.append (h : x.Reads rs chunks) (more : List (List UInt8)) :
    x.Reads rs (chunks ++ more) where
  index_le := by
    rw [List.length_append]
    exact h.index_le.trans (Nat.le_add_right _ _)
  results := by
    rw [List.take_append_of_le_length h.index_le]
    exact h.results

/-- The next result is the next chunk, and `null` at the end of the chunks. -/
lemma Handle.Reads.concat (h : x.Reads rs chunks) :
    (if chunks[x.index]?.isSome then { x with index := x.index + 1 } else x).Reads
      (rs ++ [chunks[x.index]?]) chunks := by
  cases hc : chunks[x.index]? with
  | none =>
    refine ⟨h.index_le, ?_⟩
    rw [List.reduceOption_append, h.results]
    exact List.append_nil _
  | some chunk =>
    obtain ⟨hlt, -⟩ := List.getElem?_eq_some_iff.mp hc
    refine ⟨hlt, ?_⟩
    show (rs ++ [some chunk]).reduceOption = chunks.take (x.index + 1)
    rw [List.reduceOption_append, h.results, List.take_add_one, hc]
    rfl

namespace State

variable {s s' : State} {e : Event}

/-- The chunks of all streams and the results of all objects, after some run. -/
structure Follows (s : State) (chunks : StreamID → List (List UInt8))
    (rs : ℕ → List (Option (List UInt8))) : Prop where
  holds : ∀ id, s.Holds id (chunks id)
  fresh : ∀ h, s.handles h = none → rs h = []
  reads : ∀ h x, s.handles h = some x → x.Reads (rs h) (chunks x.id)

lemma follows_init : ({} : State).Follows (fun _ => []) fun _ => [] where
  holds _ := holds_init
  fresh _ _ := rfl
  reads h x hx := by cases hx

/-- A step that no object notices. -/
lemma Follows.of_handles {chunks : StreamID → List (List UInt8)}
    {rs : ℕ → List (Option (List UInt8))} (h : s.Follows chunks rs) (hs : s.step e = some s')
    (hhandles : s'.handles = s.handles) (hresults : ∀ n, results n s e s' = []) :
    s'.Follows (fun id => chunks id ++ appended id s e s') fun n => rs n ++ results n s e s' where
  holds id := (h.holds id).step hs
  fresh n hn := by
    rw [hresults, List.append_nil]
    exact h.fresh n (hhandles ▸ hn)
  reads n x hx := by
    rw [hresults, List.append_nil]
    exact (h.reads n x (hhandles ▸ hx)).append _

theorem Follows.step {chunks : StreamID → List (List UInt8)}
    {rs : ℕ → List (Option (List UInt8))} (h : s.Follows chunks rs) (hs : s.step e = some s') :
    s'.Follows (fun id => chunks id ++ appended id s e s') fun n => rs n ++ results n s e s' := by
  cases e with
  | make n id =>
    obtain ⟨hnone, rfl⟩ := make_cases hs
    refine ⟨fun id' => (h.holds id').step hs, fun m hm => ?_, fun m x hx => ?_⟩
    · simp only [Function.update_apply] at hm
      split_ifs at hm with hmn
      simp only [results, List.append_nil]
      exact h.fresh m hm
    · simp only [Function.update_apply] at hx
      simp only [results, appended, List.append_nil]
      split_ifs at hx with hmn
      · obtain rfl := Option.some.inj hx
        rw [hmn, h.fresh n hnone]
        exact ⟨Nat.zero_le _, rfl⟩
      · exact h.reads m x hx
  | write n arg =>
    obtain ⟨x, -, -, rfl⟩ := write_cases hs
    exact h.of_handles hs rfl fun _ => rfl
  | next id =>
    obtain ⟨w, -, rfl⟩ := next_cases hs
    exact h.of_handles hs (s.perform_handles id w) fun _ => rfl
  | read n =>
    obtain ⟨x, hx, rfl⟩ := read_cases hs
    have hresult : s.readResult x = (chunks x.id)[x.index]? := (h.holds x.id).stored x.index
    refine ⟨fun id' => (h.holds id').step hs, fun m hm => ?_, fun m y hy => ?_⟩
    · rw [s.read_handles hx] at hm
      split_ifs at hm with hmn
      simp only [results, if_neg (Ne.symm hmn), List.append_nil]
      exact h.fresh m hm
    · rw [s.read_handles hx] at hy
      simp only [appended, List.append_nil]
      by_cases hmn : m = n
      · have hconcat := (h.reads n x hx).concat
        have hread : results n s (.read n) (s.read n x) = [s.readResult x] := by
          simp only [results, if_true, hx, Option.toList_some, List.map_cons, List.map_nil]
        rw [if_pos hmn] at hy
        obtain rfl := Option.some.inj hy
        rw [← hresult] at hconcat
        have hid : (if (s.readResult x).isSome then { x with index := x.index + 1 } else x).id =
            x.id := by
          split_ifs
          · rfl
          · rfl
        rw [hmn, hread, hid]
        exact hconcat
      · rw [if_neg hmn] at hy
        simp only [results, if_neg (Ne.symm hmn), List.append_nil]
        exact h.reads m y hy
  | readStream id index =>
    obtain rfl := Option.some.inj hs
    exact h.of_handles hs rfl fun _ => rfl
  | streamLength id =>
    obtain rfl := Option.some.inj hs
    exact h.of_handles hs rfl fun _ => rfl

/-! ### Whole runs -/

/-- What is stored for a stream after a run, and what readers get of it. -/
structure Stored (es : List Event) (s : State) (id : StreamID) (chunks : List (List UInt8)) :
    Prop where
  written : Run.observe step (written id) {} es = chunks ++ s.pending id
  stored : ∀ i, s.db (indexID id i) = chunks[i]?
  nonempty : ∀ chunk ∈ chunks, chunk ≠ []
  length_le : s.length id ≤ total chunks
  length_eq : s.writers id = none → s.length id = total chunks
  readStream : ∀ i, s.readStream id i = chunks[i]?.getD []
  /-- every object has returned the chunks from the first one on, and is going to return the next -/
  reads : ∀ h x, s.handles h = some x → x.id = id → x.index ≤ chunks.length ∧
    (Run.observe step (results h) {} es).reduceOption = chunks.take x.index ∧
    s.readResult x = chunks[x.index]?

lemma follows_run {es : List Event} (hrun : Run.run step {} es = some s) :
    s.Follows (fun id => Run.observe step (appended id) {} es)
      fun h => Run.observe step (results h) {} es := by
  refine Run.run_induction (motive := fun es s =>
    s.Follows (fun id => Run.observe step (appended id) {} es)
      fun h => Run.observe step (results h) {} es) follows_init ?_ hrun
  intro es s e s' hes ih hs
  have hobs : ∀ {α : Type} (obs : State → Event → State → List α),
      Run.observe step obs {} (es ++ [e]) = Run.observe step obs {} es ++ obs s e s' :=
    fun obs => Run.observe_concat obs hes hs
  simp only [hobs]
  exact ih.step hs

/-- The buffers given to `write` are stored in their order, except for one that is pending. -/
lemma written_run {es : List Event} (hrun : Run.run step {} es = some s) (id : StreamID) :
    Run.observe step (written id) {} es =
      Run.observe step (appended id) {} es ++ s.pending id := by
  refine Run.run_induction (motive := fun es s => Run.observe step (written id) {} es =
      Run.observe step (appended id) {} es ++ s.pending id) rfl ?_ hrun
  intro es s e s' hes ih hs
  rw [Run.observe_concat (State.written id) hes hs, Run.observe_concat (appended id) hes hs, ih,
    List.append_assoc, pending_step hs, List.append_assoc]

/-- However the operations of all calls interleave, every stream has the chunks written to it, its
length lags behind only during a call, and everyone who reads it reads these chunks. -/
theorem streams_stored {es : List Event} (hrun : Run.run step {} es = some s) :
    Function.Injective Key.bytes ∧ ∀ id, ∃ chunks, Stored es s id chunks := by
  refine ⟨Key.bytes_injective, fun id => ⟨Run.observe step (appended id) {} es, ?_⟩⟩
  have h := follows_run hrun
  have hid := h.holds id
  exact {
    written := written_run hrun id
    stored := hid.stored
    nonempty := hid.nonempty
    length_le := hid.length_le.1
    length_eq := hid.length_le.2
    readStream := fun i => congrArg (Option.getD · []) (hid.stored i)
    reads := by
      rintro n x hx rfl
      have hx' := h.reads n x hx
      exact ⟨hx'.index_le, hx'.results, hid.stored x.index⟩ }

/-- The stream of 36 digits `0`. -/
def zeroID : StreamID := generate fun _ => 0

/-- Two chunks through two objects, the second one not counted yet. -/
def writeRun : List Event :=
  [.make 0 zeroID, .make 1 zeroID, .write 0 (some [1, 2]), .next zeroID, .next zeroID, .next zeroID,
    .next zeroID, .read 1, .read 1, .write 1 (some [3]), .next zeroID, .next zeroID, .read 1]

theorem streams_stored_two : ∃ s : State, Run.run step {} writeRun = some s ∧
    s.length zeroID = 2 ∧ s.readStream zeroID 1 = [3] ∧
    Run.observe step (results 1) {} writeRun = [some [1, 2], none, some [3]] ∧
    Function.Injective Key.bytes ∧ ∀ id, ∃ chunks, Stored writeRun s id chunks := by
  refine ⟨_, rfl, ?_, ?_, ?_, streams_stored rfl⟩
  all_goals decide

end State

end BufferStream

end Dripcap
