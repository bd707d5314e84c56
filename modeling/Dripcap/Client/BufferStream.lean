import Dripcap.Library.Run
import Dripcap.Library.Cursor

/-!
# Streams in the user interface

`BufferStream` of `stream.es`, which fetches the chunks of a stream one by one from the core. A
call of `read` is a loop with one request in each round; further chunks may be stored between
two requests.
-/

namespace Dripcap

namespace Client

/-- A stored chunk. `BufferStream::write` stores no empty ones. -/
abbrev Chunk := {chunk : List UInt8 // chunk ≠ []}

/-- The bytes of a list of chunks. -/
def chunkBytes (chunks : List Chunk) : List UInt8 := chunks.flatMap Subtype.val

/-- `Dispatcher::readStream` for the stream of these chunks. -/
def readStream (chunks : List Chunk) (index : ℕ) : List UInt8 :=
  match chunks[index]? with
  | some chunk => chunk
  | none => []

/-- The `read_stream` command: `null` instead of no bytes. -/
def readStreamCommand (chunks : List Chunk) (index : ℕ) : Option (List UInt8) :=
  let data := readStream chunks index
  if data.isEmpty then none else some data

/-- `BufferStream` -/
structure BufferStream where
  index : ℕ := 0
  offset : ℕ := 0

/-- What a round of the loop ends in. -/
inductive Round where
  | done (result : Option (List UInt8))
  | next (buffer : List UInt8)

/-- One round of the loop of `read` for a positive integer `size`, or for one that is no integer
(`none`). The last two subtractions are never negative. -/
def BufferStream.round (st : BufferStream) (size : Option ℕ) (buffer : Option (List UInt8)) :
    Option (List UInt8) → BufferStream × Round
  | none => ({ st with index := st.index + 1 }, .done buffer)
  | some chunk =>
    let chunk := if st.offset > 0 then chunk.drop st.offset else chunk
    let buffer := buffer.getD [] ++ chunk
    match size with
    | some n =>
      if buffer.length > n then
        (⟨st.index, chunk.length - (buffer.length - n)⟩, .done (some (buffer.take n)))
      else (⟨st.index + 1, 0⟩, .next buffer)
    | none => (⟨st.index + 1, 0⟩, .next buffer)

/-- Cutting a chunk by the offset 0 leaves it as it is. -/
lemma BufferStream.round_some (st : BufferStream) (n : ℕ) (buffer : Option (List UInt8))
    (chunk : List UInt8) : st.round (some n) buffer (some chunk) =
      if (buffer.getD [] ++ chunk.drop st.offset).length > n then
        (⟨st.index, (chunk.drop st.offset).length -
          ((buffer.getD [] ++ chunk.drop st.offset).length - n)⟩,
          .done (some ((buffer.getD [] ++ chunk.drop st.offset).take n)))
      else (⟨st.index + 1, 0⟩, .next (buffer.getD [] ++ chunk.drop st.offset)) := by
  have hslice : (if st.offset > 0 then chunk.drop st.offset else chunk) = chunk.drop st.offset := by
    split_ifs with h0
    · rfl
    · rw [Nat.eq_zero_of_not_pos h0, List.drop_zero]
  simp only [round, hslice]

/-- The local variables of a call of `read`. -/
structure Call where
  size : Option ℕ
  buffer : Option (List UInt8)

/-- A stream with its chunks and the present call of `read`. -/
structure State where
  chunks : List Chunk := []
  stream : BufferStream := {}
  call : Option Call := none

inductive Event where
  /-- a chunk is stored -/
  | append (chunk : Chunk)
  /-- `read` is called; `none` stands for a size that is no integer -/
  | read (size : Option ℤ)
  /-- one round of the loop of `read` -/
  | fetch

namespace State

def append (s : State) (chunk : Chunk) : State := { s with chunks := s.chunks ++ [chunk] }

/-- `read` up to its loop. A size that is not positive returns at once. -/
def read (s : State) (size : Option ℤ) : Option State :=
  if s.call.isSome then none
  else match size with
    | none => some { s with call := some ⟨none, none⟩ }
    | some n => if n ≤ 0 then some s else some { s with call := some ⟨some n.toNat, none⟩ }

def fetch (s : State) : Option State :=
  match s.call with
  | none => none
  | some c =>
    match s.stream.round c.size c.buffer (readStreamCommand s.chunks s.stream.index) with
    | (st, .done _) => some { s with stream := st, call := none }
    | (st, .next buffer) => some { s with stream := st, call := some ⟨c.size, some buffer⟩ }

def step (s : State) : Event → Option State
  | .append chunk => some (s.append chunk)
  | .read size => s.read size
  | .fetch => s.fetch

/-- The stored byte sequence. -/
def stored (s : State) : List UInt8 := chunkBytes s.chunks

/-- The result of a call for an integer size, at the round that ends it. -/
def pieces (s : State) (e : Event) (_ : State) : List (Cursor.Piece UInt8) :=
  match e, s.call with
  | .fetch, some c =>
    match c.size, s.stream.round c.size c.buffer (readStreamCommand s.chunks s.stream.index) with
    | some n, (_, .done result) => [⟨n, s.stored, result⟩]
    | _, _ => []
  | _, _ => []

/-! ### Reading in order -/

variable {s s' : State} {e : Event} {pos n : ℕ} {es : List Event}

/-- The bytes that are still to be fetched. -/
def rest (s : State) : List UInt8 :=
  (chunkBytes (s.chunks.drop s.stream.index)).drop s.stream.offset

/-- The bytes that the present call has fetched. -/
def buffered (s : State) : List UInt8 := (s.call.bind Call.buffer).getD []

/-- `pos` bytes have been returned and the reader stands behind them. -/
structure Sound (pos : ℕ) (s : State) : Prop where
  le : pos ≤ s.stored.length
  rest_eq : s.stored.drop pos = s.buffered ++ s.rest
  inside : 0 < s.stream.offset →
    ∃ chunk, s.chunks[s.stream.index]? = some chunk ∧ s.stream.offset < chunk.val.length
  size : ∀ c, s.call = some c → ∃ n, c.size = some n ∧ 0 < n ∧ s.buffered.length ≤ n ∧
    (c.buffer = none → ∀ chunk, 0 < s.stream.offset → s.chunks[s.stream.index]? = some chunk →
      chunk.val.length - s.stream.offset ≤ n) ∧
    (∀ b, c.buffer = some b → s.stream.offset = 0 ∧ b ≠ [])

/-- What keeps a reader sound: a read that begins inside a chunk asks for all that is left of it,
and no chunk is stored after the reader has asked for more than there was. -/
def InOrder (s : State) : Event → Prop
  | .append _ => s.stream.index ≤ s.chunks.length
  | .read size => ∀ n chunk, size = some n → 0 < s.stream.offset →
      s.chunks[s.stream.index]? = some chunk → chunk.val.length - s.stream.offset ≤ n
  | .fetch => True

/-- The calls have a positive integer size. -/
def Positive : Event → Prop
  | .read size => ∃ n, size = some n ∧ 0 < n
  | _ => True

/-- A new reader of a stream that has these chunks. -/
def opened (chunks : List Chunk) : State := { chunks }

lemma sound_opened (chunks : List Chunk) : (opened chunks).Sound 0 where
  le := Nat.zero_le _
  rest_eq := rfl
  inside h := absurd h (lt_irrefl 0)
  size c h := by cases h

lemma chunkBytes_append (xs ys : List Chunk) :
    chunkBytes (xs ++ ys) = chunkBytes xs ++ chunkBytes ys :=
  List.flatMap_append

/-- What is to be fetched begins with the rest of the present chunk. -/
lemma rest_of_chunk {chunk : Chunk} (h : s.chunks[s.stream.index]? = some chunk)
    (hin : s.stream.offset ≤ chunk.val.length) :
    s.rest = chunk.val.drop s.stream.offset ++ chunkBytes (s.chunks.drop (s.stream.index + 1)) := by
  obtain ⟨hlt, hget⟩ := List.getElem?_eq_some_iff.mp h
  rw [rest, List.drop_eq_getElem_cons hlt, hget]
  exact List.drop_append_of_le_length hin

lemma rest_of_none (h : s.chunks[s.stream.index]? = none) : s.rest = [] := by
  rw [rest, List.drop_eq_nil_of_le (List.getElem?_eq_none_iff.mp h)]
  exact List.drop_nil

lemma readStreamCommand_eq (chunks : List Chunk) (index : ℕ) :
    readStreamCommand chunks index = chunks[index]?.map Subtype.val := by
  unfold readStreamCommand readStream
  cases chunks[index]? with
  | none => rfl
  | some chunk => simp [chunk.property]

lemma Sound.append (h : s.Sound pos) (chunk : Chunk) (hin : s.stream.index ≤ s.chunks.length) :
    (s.append chunk).Sound pos := by
  have hstored : (s.append chunk).stored = s.stored ++ chunk.val := by
    have hone : chunkBytes [chunk] = chunk.val := List.flatMap_singleton _ _
    rw [stored, ← hone]
    exact chunkBytes_append s.chunks [chunk]
  have hold : ∀ c, s.chunks[s.stream.index]? = some c →
      (s.append chunk).chunks[(s.append chunk).stream.index]? = some c := by
    intro c hc
    exact (List.getElem?_append_left (List.getElem?_eq_some_iff.mp hc).1).trans hc
  have hoffset : s.stream.offset ≤ (chunkBytes (s.chunks.drop s.stream.index)).length := by
    rcases Nat.eq_zero_or_pos s.stream.offset with h0 | hpos
    · simp [h0]
    · obtain ⟨c, hc, hlt⟩ := h.inside hpos
      obtain ⟨hi, hget⟩ := List.getElem?_eq_some_iff.mp hc
      rw [List.drop_eq_getElem_cons hi, hget, chunkBytes, List.flatMap_cons, List.length_append]
      omega
  have hrest : (s.append chunk).rest = s.rest ++ chunk.val := by
    have hdrop : (s.append chunk).rest = (chunkBytes ((s.chunks ++ [chunk]).drop s.stream.index)).drop
        s.stream.offset := rfl
    rw [hdrop, List.drop_append_of_le_length hin, chunkBytes_append,
      List.drop_append_of_le_length hoffset, rest]
    exact congrArg _ (List.flatMap_singleton _ _)
  refine ⟨?_, ?_, fun hpos => ?_, fun c hc => ?_⟩
  · rw [hstored, List.length_append]
    exact h.le.trans (Nat.le_add_right _ _)
  · rw [hstored, List.drop_append_of_le_length h.le, h.rest_eq, hrest, List.append_assoc]
    rfl
  · obtain ⟨c, hc, hlt⟩ := h.inside hpos
    exact ⟨c, hold c hc, hlt⟩
  · obtain ⟨n, hsize, hn, hle, hfirst, hlater⟩ := h.size c hc
    refine ⟨n, hsize, hn, hle, fun hb c' hpos hc' => ?_, hlater⟩
    obtain ⟨c'', hc'', hlt⟩ := h.inside hpos
    obtain rfl : c'' = c' := by
      rw [hold c'' hc''] at hc'
      exact Option.some.inj hc'
    exact hfirst hb c'' hpos hc''

lemma Sound.read (h : s.Sound pos) {size : Option ℤ} (hs : s.read size = some s')
    (hpos : Positive (.read size)) (hin : s.InOrder (.read size)) : s'.Sound pos := by
  obtain ⟨n, rfl, hn⟩ := hpos
  unfold State.read at hs
  have hcall : s.call = none := by
    cases hc : s.call with
    | none => rfl
    | some c => simp [hc] at hs
  have hn' : ¬ n ≤ 0 := by omega
  simp only [hcall, Option.isSome_none, Bool.false_eq_true, if_false, if_neg hn',
    Option.some.injEq] at hs
  subst hs
  refine ⟨h.le, ?_, h.inside, fun c hc => ?_⟩
  · have hnone : s.buffered = [] := by simp [buffered, hcall]
    have hrest := h.rest_eq
    rw [hnone] at hrest
    exact hrest
  · obtain rfl := Option.some.inj hc
    refine ⟨n.toNat, rfl, by omega, Nat.zero_le _, fun _ chunk ho hchunk => ?_, by simp⟩
    have hall := hin n chunk rfl ho hchunk
    show chunk.val.length - s.stream.offset ≤ n.toNat
    omega

variable (s') in
/-- The request for a chunk that is not there ends the call with what has been fetched. -/
lemma Sound.fetch_none (h : s.Sound pos) {c : Call} (hcall : s.call = some c)
    (hsize : c.size = some n) (hchunk : s.chunks[s.stream.index]? = none) :
    s.fetch = some { s with stream := { s.stream with index := s.stream.index + 1 }, call := none } ∧
      pieces s .fetch s' = [⟨n, s.stored, c.buffer⟩] ∧
      (⟨n, s.stored, c.buffer⟩ : Cursor.Piece UInt8).Exact pos ∧
      State.Sound (pos + (c.buffer.getD []).length)
        { s with stream := { s.stream with index := s.stream.index + 1 }, call := none } := by
  obtain ⟨n', hsize', hn, hle, -, hlater⟩ := h.size c hcall
  obtain rfl : n = n' := Option.some.inj (hsize.symm.trans hsize')
  have hbuf : s.buffered = c.buffer.getD [] := by simp [buffered, hcall]
  have hremain : s.stored.drop pos = c.buffer.getD [] := by
    rw [h.rest_eq, rest_of_none hchunk, hbuf, List.append_nil]
  have hlength := congrArg List.length hremain
  rw [List.length_drop] at hlength
  have hoffset : s.stream.offset = 0 := by
    by_contra hne
    obtain ⟨chunk, hc, -⟩ := h.inside (Nat.pos_of_ne_zero hne)
    rw [hchunk] at hc
    cases hc
  refine ⟨?_, ?_, ⟨?_, ?_⟩, ?_, ?_, fun hpos => ?_, fun c hc => ?_⟩
  · simp [fetch, hcall, readStreamCommand_eq, hchunk, BufferStream.round]
  · simp [pieces, hcall, hsize, readStreamCommand_eq, hchunk, BufferStream.round]
  · rw [hremain, List.take_of_length_le (hbuf ▸ hle)]
    rfl
  · rw [hremain]
    cases hb : c.buffer with
    | none => simp
    | some b => simpa using (hlater b hb).2
  · have hpos := h.le
    simp only [stored] at hlength hpos ⊢
    omega
  · have hnil : s.chunks.drop (s.stream.index + 1) = [] :=
      List.drop_eq_nil_of_le ((List.getElem?_eq_none_iff.mp hchunk).trans (Nat.le_succ _))
    have hstored : s.stored.drop (pos + (c.buffer.getD []).length) = [] :=
      List.drop_eq_nil_of_le (by have := h.le; omega)
    refine Eq.trans hstored ?_
    simp [buffered, rest, hnil, chunkBytes]
  · exact absurd hpos (by simp [hoffset])
  · cases hc

/-- The offset lies inside the chunk, which is not empty. -/
lemma Sound.offset_lt (h : s.Sound pos) {chunk : Chunk}
    (hchunk : s.chunks[s.stream.index]? = some chunk) : s.stream.offset < chunk.val.length := by
  rcases Nat.eq_zero_or_pos s.stream.offset with h0 | hpos
  · rw [h0]
    exact List.length_pos_of_ne_nil chunk.property
  · obtain ⟨chunk', hc, hlt⟩ := h.inside hpos
    rw [hchunk] at hc
    rw [Option.some.inj hc]
    exact hlt

/-- What has not been returned: the buffer, what is left of the chunk, and the chunks behind. -/
lemma Sound.remain (h : s.Sound pos) {chunk : Chunk}
    (hchunk : s.chunks[s.stream.index]? = some chunk) :
    s.stored.drop pos = (s.buffered ++ chunk.val.drop s.stream.offset) ++
      chunkBytes (s.chunks.drop (s.stream.index + 1)) := by
  rw [h.rest_eq, rest_of_chunk hchunk (h.offset_lt hchunk).le, List.append_assoc]

/-- A call that has more bytes than it is asked for ends inside the chunk. -/
lemma Sound.fetch_ends (h : s.Sound pos) {c : Call} (hcall : s.call = some c)
    (hsize : c.size = some n) {chunk : Chunk} (hchunk : s.chunks[s.stream.index]? = some chunk)
    (hmore : n < (s.buffered ++ chunk.val.drop s.stream.offset).length) :
    (⟨n, s.stored, some ((s.buffered ++ chunk.val.drop s.stream.offset).take n)⟩ :
        Cursor.Piece UInt8).Exact pos ∧
      State.Sound (pos + n) ⟨s.chunks, ⟨s.stream.index, (chunk.val.drop s.stream.offset).length -
        ((s.buffered ++ chunk.val.drop s.stream.offset).length - n)⟩, none⟩ := by
  obtain ⟨n', hsize', hn, hle, hfirst, hlater⟩ := h.size c hcall
  obtain rfl : n = n' := Option.some.inj (hsize.symm.trans hsize')
  have hbuf : s.buffered = c.buffer.getD [] := by simp [buffered, hcall]
  have hremain := h.remain hchunk
  -- a read that began inside the chunk would have taken the rest of it
  have hoffset : s.stream.offset = 0 := by
    cases hb : c.buffer with
    | some b => exact (hlater b hb).1
    | none =>
      by_contra hne
      have hall := hfirst hb chunk (Nat.pos_of_ne_zero hne) hchunk
      rw [hbuf, hb, Option.getD_none, List.nil_append, List.length_drop] at hmore
      omega
  rw [hoffset, List.drop_zero] at hremain hmore ⊢
  have hlength := congrArg List.length hremain
  simp only [List.length_drop, List.length_append] at hlength hmore
  have hcut : chunk.val.length - ((s.buffered ++ chunk.val).length - n) = n - s.buffered.length := by
    rw [List.length_append]
    omega
  rw [hcut]
  refine ⟨⟨?_, ?_⟩, ?_, ?_, fun _ => ⟨chunk, hchunk, ?_⟩, fun c hc => by cases hc⟩
  · have hwithin : n ≤ (s.buffered ++ chunk.val).length := by
      rw [List.length_append]
      omega
    rw [hremain, List.take_append_of_le_length hwithin]
    rfl
  · refine iff_of_false (by simp) fun hnil => ?_
    have hdrop : s.stored.drop pos = [] := hnil
    rw [hremain] at hdrop
    have hempty := congrArg List.length hdrop
    simp only [List.length_append, List.length_nil] at hempty
    omega
  · show pos + n ≤ s.stored.length
    omega
  · have hrest := rest_of_chunk (s := ⟨s.chunks, ⟨s.stream.index, n - s.buffered.length⟩, none⟩)
      hchunk (by show n - s.buffered.length ≤ chunk.val.length; omega)
    rw [hrest]
    show s.stored.drop (pos + n) = _
    rw [← List.drop_drop, hremain, List.append_assoc, List.drop_append, List.drop_eq_nil_of_le hle,
      List.drop_append_of_le_length (by omega)]
    rfl
  · show n - s.buffered.length < chunk.val.length
    omega

/-- A call that has not enough bytes takes the chunk as a whole and goes on. -/
lemma Sound.fetch_goes_on (h : s.Sound pos) {c : Call} (hcall : s.call = some c)
    (hsize : c.size = some n) {chunk : Chunk} (hchunk : s.chunks[s.stream.index]? = some chunk)
    (hle : (s.buffered ++ chunk.val.drop s.stream.offset).length ≤ n) :
    State.Sound pos ⟨s.chunks, ⟨s.stream.index + 1, 0⟩,
      some ⟨c.size, some (s.buffered ++ chunk.val.drop s.stream.offset)⟩⟩ := by
  obtain ⟨n', hsize', hn, -⟩ := h.size c hcall
  obtain rfl : n = n' := Option.some.inj (hsize.symm.trans hsize')
  have hne : s.buffered ++ chunk.val.drop s.stream.offset ≠ [] := by
    intro hnil
    have hlength := congrArg List.length (List.append_eq_nil_iff.mp hnil).2
    rw [List.length_drop, List.length_nil] at hlength
    have hlt := h.offset_lt hchunk
    omega
  refine ⟨h.le, h.remain hchunk, fun h0 => absurd h0 (lt_irrefl 0), fun c' hc' => ?_⟩
  obtain rfl := Option.some.inj hc'
  refine ⟨n, hsize, hn, hle, fun hb => by simp at hb, fun b hb => ⟨rfl, ?_⟩⟩
  obtain rfl := Option.some.inj hb
  exact hne

/-- A chunk that is there ends the call where it has more bytes than are asked for. -/
lemma Sound.fetch_some (h : s.Sound pos) {c : Call} (hcall : s.call = some c)
    (hsize : c.size = some n) {chunk : Chunk} (hchunk : s.chunks[s.stream.index]? = some chunk)
    (hs : s.fetch = some s') :
    (pieces s .fetch s' = [] ∧ s'.Sound pos) ∨ ∃ result,
      pieces s .fetch s' = [⟨n, s.stored, some result⟩] ∧
      (⟨n, s.stored, some result⟩ : Cursor.Piece UInt8).Exact pos ∧
      s'.Sound (pos + result.length) := by
  have hround := s.stream.round_some n c.buffer chunk.val
  have hbuf : c.buffer.getD [] = s.buffered := by simp [buffered, hcall]
  rw [hbuf] at hround
  by_cases hmore : (s.buffered ++ chunk.val.drop s.stream.offset).length > n
  · rw [if_pos hmore] at hround
    obtain ⟨hexact, hsound⟩ := h.fetch_ends hcall hsize hchunk hmore
    refine Or.inr ⟨_, ?_, hexact, ?_⟩
    · simp [pieces, hcall, hsize, readStreamCommand_eq, hchunk, hround]
    · simp only [fetch, hcall, hsize, readStreamCommand_eq, hchunk, Option.map_some, hround,
        Option.some.injEq] at hs
      subst hs
      rw [List.length_take, min_eq_left (Nat.le_of_lt hmore)]
      exact hsound
  · rw [if_neg hmore] at hround
    refine Or.inl ⟨?_, ?_⟩
    · simp [pieces, hcall, hsize, readStreamCommand_eq, hchunk, hround]
    · have hgoes := h.fetch_goes_on hcall hsize hchunk (not_lt.mp hmore)
      simp only [fetch, hcall, hsize, readStreamCommand_eq, hchunk, Option.map_some, hround,
        Option.some.injEq] at hs
      subst hs
      rw [hsize] at hgoes
      exact hgoes

/-- One step of a sound reader: what it returns begins where it stands. -/
lemma Sound.step (h : s.Sound pos) (hpos : Positive e) (hin : s.InOrder e) (hs : s.step e = some s') :
    Cursor.Follows pos (pieces s e s') ∧ s'.Sound (pos + (Cursor.items (pieces s e s')).length) := by
  cases e with
  | append chunk =>
    obtain rfl := Option.some.inj hs
    exact ⟨trivial, h.append chunk hin⟩
  | read size => exact ⟨trivial, h.read hs hpos hin⟩
  | fetch =>
    obtain ⟨c, hcall⟩ : ∃ c, s.call = some c := by
      cases hc : s.call with
      | none => simp [State.step, fetch, hc] at hs
      | some c => exact ⟨c, rfl⟩
    obtain ⟨n, hsize, -⟩ := h.size c hcall
    cases hchunk : s.chunks[s.stream.index]? with
    | none =>
      obtain ⟨hfetch, hpieces, hexact, hsound⟩ := h.fetch_none s' hcall hsize hchunk
      obtain rfl := Option.some.inj (hfetch.symm.trans hs)
      rw [hpieces, Cursor.items_singleton]
      exact ⟨⟨hexact, trivial⟩, hsound⟩
    | some chunk =>
      rcases h.fetch_some hcall hsize hchunk hs with ⟨hpieces, hsound⟩ | ⟨r, hpieces, hexact, hsound⟩
      · rw [hpieces]
        exact ⟨trivial, hsound⟩
      · rw [hpieces, Cursor.items_singleton]
        exact ⟨⟨hexact, trivial⟩, hsound⟩

/-- Chunks are only added. -/
lemma step_stored (hs : s.step e = some s') : s.stored <+: s'.stored := by
  cases e with
  | append chunk =>
    obtain rfl := Option.some.inj hs
    exact ⟨chunkBytes [chunk], (chunkBytes_append s.chunks [chunk]).symm⟩
  | read size =>
    have hs' : s.read size = some s' := hs
    unfold State.read at hs'
    split_ifs at hs'
    split at hs'
    · obtain rfl := Option.some.inj hs'
      exact List.prefix_rfl
    · split_ifs at hs'
      all_goals
        obtain rfl := Option.some.inj hs'
        exact List.prefix_rfl
  | fetch =>
    have hs' : s.fetch = some s' := hs
    unfold fetch at hs'
    split at hs'
    · cases hs'
    · split at hs'
      all_goals
        obtain rfl := Option.some.inj hs'
        exact List.prefix_rfl

/-- The pieces know the bytes stored when they were taken. -/
lemma stored_of_mem_pieces {p : Cursor.Piece UInt8} (hp : p ∈ pieces s e s') : p.stored = s.stored := by
  unfold pieces at hp
  split at hp
  · split at hp
    · rw [List.mem_singleton.mp hp]
    · cases hp
  · cases hp

/-- Reading a stream by pieces is reading it whole, in every run that keeps the reader in order. -/
theorem reads_whole {chunks : List Chunk} (hrun : Run.run step (opened chunks) es = some s)
    (hpos : ∀ e ∈ es, Positive e) (horder : Run.Meets step InOrder (opened chunks) es) :
    Cursor.Whole (Run.observe step pieces (opened chunks) es) s.stored := by
  obtain ⟨hfollows, -, hstored⟩ : Cursor.Follows 0 (Run.observe step pieces (opened chunks) es) ∧
      s.Sound (Cursor.items (Run.observe step pieces (opened chunks) es)).length ∧
      ∀ p ∈ Run.observe step pieces (opened chunks) es, p.stored <+: s.stored := by
    refine Run.meets_induction (motive := fun es s => (∀ e ∈ es, Positive e) →
      Cursor.Follows 0 (Run.observe step pieces (opened chunks) es) ∧
        s.Sound (Cursor.items (Run.observe step pieces (opened chunks) es)).length ∧
        ∀ p ∈ Run.observe step pieces (opened chunks) es, p.stored <+: s.stored)
      (fun _ => ⟨trivial, sound_opened chunks, by simp [Run.observe]⟩) ?_ horder hrun hpos
    intro es s e s' hes ih hin hs hpos
    obtain ⟨hfollows, hsound, hstored⟩ := ih fun e' he' => hpos e' (List.mem_append_left _ he')
    obtain ⟨hnext, hsound'⟩ := hsound.step (hpos e (by simp)) hin hs
    rw [Run.observe_concat pieces hes hs, Cursor.items_append, List.length_append]
    refine ⟨Cursor.follows_append.mpr ⟨hfollows, by rwa [Nat.zero_add]⟩, hsound', fun p hp => ?_⟩
    rcases List.mem_append.mp hp with hp | hp
    · exact (hstored p hp).trans (step_stored hs)
    · rw [stored_of_mem_pieces hp]
      exact step_stored hs
  exact hfollows.whole hstored

/-- A chunk of three bytes. -/
def threeBytes : Chunk := ⟨[1, 2, 3], by decide⟩

/-- Two bytes of the chunk, the last one, and a second chunk in between. -/
def orderlyRun : List Event :=
  [.read (some 2), .fetch, .append ⟨[4], by decide⟩, .read (some 5), .fetch, .fetch, .fetch]

theorem reads_whole_orderly : ∃ s : State,
    Run.run step (opened [threeBytes]) orderlyRun = some s ∧
      (Run.observe step pieces (opened [threeBytes]) orderlyRun).map Cursor.Piece.result =
        [some [1, 2], some [3, 4]] ∧
      Cursor.Whole (Run.observe step pieces (opened [threeBytes]) orderlyRun) s.stored := by
  have hpos : ∀ e ∈ orderlyRun, Positive e := by
    intro e he
    simp only [orderlyRun, List.mem_cons, List.not_mem_nil, or_false] at he
    rcases he with rfl | rfl | rfl | rfl | rfl | rfl | rfl
    · exact ⟨2, rfl, by decide⟩
    · trivial
    · trivial
    · exact ⟨5, rfl, by decide⟩
    all_goals trivial
  have horder : Run.Meets step InOrder (opened [threeBytes]) orderlyRun := by
    refine (Run.meets_cons rfl).mpr ⟨fun n chunk _ h => absurd h (by decide), ?_⟩
    refine (Run.meets_cons rfl).mpr ⟨trivial, ?_⟩
    refine (Run.meets_cons rfl).mpr ⟨Nat.zero_le 1, ?_⟩
    refine (Run.meets_cons rfl).mpr ⟨fun n chunk hn _ hchunk => ?_, ?_⟩
    · obtain rfl := Option.some.inj hn
      obtain rfl := Option.some.inj hchunk
      decide
    · repeat refine (Run.meets_cons rfl).mpr ⟨trivial, ?_⟩
      trivial
  exact ⟨_, rfl, rfl, reads_whole rfl hpos horder⟩

/-- The chunk read byte by byte. -/
def bytewiseRun : List Event :=
  [.read (some 1), .fetch, .read (some 1), .fetch, .read (some 1), .fetch]

/-- A chunk is read to its end before another one is stored. -/
def overrunRun : List Event :=
  [.read (some 3), .fetch, .fetch, .append ⟨[4], by decide⟩, .read (some 1), .fetch]

/-- The second byte is returned twice, and the second chunk not at all. -/
theorem read_repeats_and_skips :
    (∃ s, Run.run step (opened [threeBytes]) bytewiseRun = some s ∧
      (Run.observe step pieces (opened [threeBytes]) bytewiseRun).map Cursor.Piece.result =
        [some [1], some [2], some [2]] ∧
      ¬ Cursor.Whole (Run.observe step pieces (opened [threeBytes]) bytewiseRun) s.stored) ∧
    ∃ s, Run.run step (opened [threeBytes]) overrunRun = some s ∧
      (Run.observe step pieces (opened [threeBytes]) overrunRun).map Cursor.Piece.result =
        [some [1, 2, 3], none] ∧
      ¬ Cursor.Whole (Run.observe step pieces (opened [threeBytes]) overrunRun) s.stored := by
  refine ⟨⟨_, rfl, rfl, fun h => ?_⟩, _, rfl, rfl, fun h => ?_⟩
  · exact absurd h.items_begin (by decide)
  · have hnone := (h.none_iff [⟨3, [1, 2, 3], some [1, 2, 3]⟩] ⟨1, [1, 2, 3, 4], none⟩ [] rfl).mp rfl
    exact absurd hnone (by decide)

end State

end Client

end Dripcap
