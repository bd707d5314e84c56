import Dripcap.Server.Unpacked

/-!
# What the unpacker makes of a stream

However the bytes of a stream come, the unpacker makes the values of them that `MessagePack.values`
finds in the whole of them (`unpacks`): a turn leaves the values to come as they are but for those
that it takes. Strings of an unfinished object stay where they are, although the parser goes to a
new buffer, as long as the buffer is not written from its beginning again while an object refers to
it (`Rewinds`).
-/

namespace Dripcap.Unpacker

open Polish MessagePack

variable {p : Unpacker}

/-- The bytes that the parser has not got to. -/
def unparsed (p : Unpacker) : List UInt8 := ((p.memory p.buffer).take p.used).drop p.off

/-- The values that come of an unpacker and more bytes. -/
def decode (p : Unpacker) (more : List UInt8) : List (Term (Leaf Double)) × Bool :=
  p.context.decode (load p.memory) (p.unparsed ++ more)

/-- The positions are in the buffer, and so is what is referred to. -/
structure Sound (p : Unpacker) : Prop where
  context : p.context.Sound p.buffer p.off
  counter : COUNTER_SIZE ≤ p.off
  referenced : p.context.referenced = true → COUNTER_SIZE < p.off
  off_le : p.off ≤ p.used
  used_le : p.used ≤ (p.memory p.buffer).length
  initial : 0 < p.initialBufferSize

lemma sound_new (initialBufferSize : ℕ) : (new initialBufferSize).Sound :=
  ⟨⟨nofun, .inl rfl⟩, le_rfl, nofun, le_rfl, le_rfl, lt_max_of_lt_right (by decide)⟩

lemma decode_new (initialBufferSize : ℕ) (bytes : List UInt8) :
    (new initialBufferSize).decode bytes = (values loadFloat bytes, malformed loadFloat bytes) :=
  decode_header rfl bytes

lemma loads (hused : p.used ≤ (p.memory p.buffer).length) :
    Loads (load p.memory) p.buffer ((p.memory p.buffer).take p.used) := by
  intro n size h
  rw [List.length_take_of_le hused] at h
  have hmin : min size (p.used - n) = size := by omega
  rw [load, List.drop_take, List.take_take, hmin]

/-- Only the strings that are referred to matter. -/
lemma decode_congr {f g : Slice → List UInt8} {c : Context} {buffer current : ℕ}
    (hc : c.Parsed buffer current)
    (h : ∀ s, Refers buffer current c.referenced s → f s = g s) (bytes : List UInt8) :
    c.decode f bytes = c.decode g bytes := by
  have hstack : c.stack.map (Frame.mapLeaves (Scalar.mapStrings f)) =
      c.stack.map (Frame.mapLeaves (Scalar.mapStrings g)) := by
    refine List.map_congr_left fun frame hframe => frame.mapLeaves_congr fun a ha => ?_
    exact mapStrings_congr fun s hs =>
      h s (hc a (List.mem_flatMap.mpr ⟨frame, hframe, ha⟩) s hs)
  rw [Context.decode, Context.decode]
  cases c.cs.lex c.trail bytes with
  | none => rfl
  | some r => rw [Context.resume, Context.resume, hstack]

/-! ### The buffer -/

section Buffer

lemma memory_bufferConsumed (p : Unpacker) (chunk : List UInt8) :
    (p.bufferConsumed chunk).memory p.buffer = (p.memory p.buffer).take p.used ++ chunk ++
      (p.memory p.buffer).drop (p.used + chunk.length) := Function.update_self _ _ _

lemma memory_bufferConsumed_of_ne {i : ℕ} (h : i ≠ p.buffer) (chunk : List UInt8) :
    (p.bufferConsumed chunk).memory i = p.memory i := Function.update_of_ne h _ _

lemma unparsed_bufferConsumed (hp : p.Sound) (chunk : List UInt8) :
    (p.bufferConsumed chunk).unparsed = p.unparsed ++ chunk := by
  have hlength : ((p.memory p.buffer).take p.used ++ chunk).length = p.used + chunk.length := by
    rw [List.length_append, List.length_take_of_le hp.used_le]
  have hoff : p.off ≤ ((p.memory p.buffer).take p.used).length := by
    rw [List.length_take_of_le hp.used_le]
    exact hp.off_le
  show List.drop p.off (List.take (p.used + chunk.length) ((p.bufferConsumed chunk).memory p.buffer))
    = _
  rw [memory_bufferConsumed, ← hlength, List.take_left, List.drop_append_of_le_length hoff]
  rfl

/-- What is referred to is not written over. -/
lemma load_bufferConsumed (hp : p.Sound) (chunk : List UInt8) {s : Slice}
    (h : Refers p.buffer p.off p.context.referenced s) :
    load (p.bufferConsumed chunk).memory s = load p.memory s := by
  rw [load, load]
  rcases h with hlt | ⟨heq, _, hend⟩
  · rw [memory_bufferConsumed_of_ne hlt.ne]
  · have hle : s.start + s.size ≤ p.used := hend.trans hp.off_le
    have hmin : min s.size (p.used - s.start) = s.size := by omega
    have htake : s.start ≤ ((p.memory p.buffer).take p.used).length := by
      rw [List.length_take_of_le hp.used_le]
      omega
    have hsize : s.size ≤ (((p.memory p.buffer).take p.used).drop s.start).length := by
      rw [List.length_drop, List.length_take_of_le hp.used_le]
      omega
    rw [heq, memory_bufferConsumed, List.append_assoc, List.drop_append_of_le_length htake,
      List.take_append_of_le_length hsize, List.drop_take, List.take_take, hmin]

lemma sound_bufferConsumed (hp : p.Sound) (chunk : List UInt8) : (p.bufferConsumed chunk).Sound := by
  refine ⟨hp.context, hp.counter, hp.referenced, hp.off_le.trans (Nat.le_add_right _ _), ?_,
    hp.initial⟩
  show p.used + chunk.length ≤ ((p.bufferConsumed chunk).memory p.buffer).length
  rw [memory_bufferConsumed, List.length_append, List.length_append,
    List.length_take_of_le hp.used_le]
  exact Nat.le_add_right _ _

lemma decode_bufferConsumed (hp : p.Sound) (chunk more : List UInt8) :
    (p.bufferConsumed chunk).decode more = p.decode (chunk ++ more) := by
  rw [decode, unparsed_bufferConsumed hp, decode, List.append_assoc]
  exact decode_congr hp.context.parsed (fun s hs => load_bufferConsumed hp chunk hs) _

/-- A buffer that something refers to is kept. -/
lemma load_moveTo (content : List UInt8) {referenced : Bool} {s : Slice}
    (h : Refers p.buffer p.off referenced s) :
    load (p.moveTo content referenced) s = load p.memory s := by
  have hne : s.buffer ≠ p.buffer + 1 := by
    rcases h with hlt | ⟨heq, _⟩
    · exact (hlt.trans (Nat.lt_succ_self _)).ne
    · exact heq ▸ (Nat.lt_succ_self _).ne
  rw [load, load, moveTo, Function.update_of_ne hne]
  rcases h with hlt | ⟨_, href, _⟩
  · split_ifs
    · rfl
    · rw [Function.update_of_ne hlt.ne]
  · rw [if_pos href]

lemma memory_moveTo (content : List UInt8) (referenced : Bool) :
    p.moveTo content referenced (p.buffer + 1) = content := Function.update_self _ _ _

/-- Behind a new buffer all strings are in earlier ones. -/
lemma Refers.succ {buffer current current' : ℕ} {referenced referenced' : Bool} {s : Slice}
    (h : Refers buffer current referenced s) : Refers (buffer + 1) current' referenced' s := by
  rcases h with hlt | ⟨heq, _⟩
  · exact .inl (hlt.trans (Nat.lt_succ_self _))
  · exact .inl (heq ▸ Nat.lt_succ_self _)

lemma length_unparsed (hp : p.Sound) : p.unparsed.length = p.used - p.off := by
  rw [unparsed, List.length_drop, List.length_take_of_le hp.used_le]

lemma referenced_of_off (hp : p.Sound) (hoff : p.off = COUNTER_SIZE) :
    p.context.referenced = false := by
  cases href : p.context.referenced with
  | false => rfl
  | true => exact absurd hoff (hp.referenced href).ne'

lemma sound_reallocate (hp : p.Sound) (size : ℕ) : (p.reallocate size).Sound := by
  rw [reallocate]
  split_ifs with hoff
  · refine ⟨⟨fun a ha s hs => (hp.context.parsed a ha s hs).succ, hp.context.awaits⟩, hp.counter,
      hp.referenced, hp.off_le, ?_, hp.initial⟩
    show p.used ≤ (p.moveTo _ _ (p.buffer + 1)).length
    rw [memory_moveTo]
    exact hp.used_le
  · refine ⟨⟨fun a ha s hs => (hp.context.parsed a ha s hs).succ, hp.context.awaits⟩, le_rfl, nofun,
      Nat.le_add_left _ _, ?_, hp.initial⟩
    show p.used - p.off + COUNTER_SIZE ≤ (p.moveTo _ _ (p.buffer + 1)).length
    rw [memory_moveTo, List.length_append, List.length_replicate]
    show _ ≤ COUNTER_SIZE + p.unparsed.length
    rw [length_unparsed hp, Nat.add_comm]

lemma unparsed_reallocate (hp : p.Sound) (size : ℕ) : (p.reallocate size).unparsed = p.unparsed := by
  rw [reallocate]
  split_ifs with hoff
  · show ((p.moveTo (p.memory p.buffer) false (p.buffer + 1)).take p.used).drop p.off = p.unparsed
    rw [memory_moveTo]
    rfl
  · have hlength : (List.replicate COUNTER_SIZE (0 : UInt8) ++ p.unparsed).length =
        p.used - p.off + COUNTER_SIZE := by
      rw [List.length_append, List.length_replicate, length_unparsed hp, Nat.add_comm]
    show ((p.moveTo (List.replicate COUNTER_SIZE 0 ++ p.unparsed) _ (p.buffer + 1)).take
      (p.used - p.off + COUNTER_SIZE)).drop COUNTER_SIZE = p.unparsed
    rw [memory_moveTo, ← hlength, List.take_length, List.drop_left' List.length_replicate]

lemma load_reallocate (hp : p.Sound) (size : ℕ) {s : Slice}
    (h : Refers p.buffer p.off p.context.referenced s) :
    load (p.reallocate size).memory s = load p.memory s := by
  rw [reallocate]
  split_ifs with hoff
  · rw [referenced_of_off hp hoff] at h
    exact load_moveTo _ h
  · exact load_moveTo _ h

lemma decode_reallocate (hp : p.Sound) (size : ℕ) (more : List UInt8) :
    (p.reallocate size).decode more = p.decode more := by
  have hcontext (load : Slice → List UInt8) (bytes : List UInt8) :
      (p.reallocate size).context.decode load bytes = p.context.decode load bytes := by
    rw [reallocate]
    split_ifs
    · rfl
    · rfl
  rw [decode, unparsed_reallocate hp, hcontext]
  exact decode_congr hp.context.parsed (fun s hs => load_reallocate hp size hs) _

/-- Every round adds to the size at least one. -/
lemma le_grow {size next_size rounds : ℕ} (hpos : 0 < next_size) (h : size ≤ next_size + rounds) :
    size ≤ grow size next_size rounds := by
  induction rounds generalizing next_size with
  | zero => exact h
  | succ rounds ih =>
    rw [grow]
    split_ifs with hlt
    · exact ih (by omega) (by omega)
    · exact not_lt.mp hlt

lemma le_free_reallocate (hcounter : COUNTER_SIZE ≤ p.used) (hinitial : 0 < p.initialBufferSize)
    (size : ℕ) : size ≤ (p.reallocate size).free := by
  have hused : 4 ≤ p.used := hcounter
  rw [reallocate]
  split_ifs
  · have hgrow : size + p.used ≤ grow (size + p.used) ((p.used + p.free) * 2) (size + p.used) :=
      le_grow (by omega) (Nat.le_add_left _ _)
    show size ≤ _ - p.used
    omega
  · have hgrow := le_grow hinitial
      (Nat.le_add_left (size + (p.used - p.off) + COUNTER_SIZE) p.initialBufferSize)
    show size ≤ _ - (p.used - p.off + COUNTER_SIZE)
    omega

/-- There is as much room as has been asked for. -/
lemma le_free_reserveBuffer (hp : p.Sound) (size : ℕ) : size ≤ (p.reserveBuffer size).free := by
  rw [reserveBuffer, expandBuffer]
  split_ifs with hfree _ hrewound
  · exact hfree
  · exact hrewound
  · exact le_free_reallocate (p := p.rewind) le_rfl hp.initial size
  · exact le_free_reallocate (hp.counter.trans hp.off_le) hp.initial size

/-- There is room, or the buffer is not written from its beginning again. -/
def KeepsAll (p : Unpacker) (size : ℕ) : Prop := ¬ (p.free < size ∧ p.Rewinds)

instance (p : Unpacker) (size : ℕ) : Decidable (p.KeepsAll size) :=
  inferInstanceAs (Decidable (¬ _))

lemma reserveBuffer_eq {size : ℕ} (h : p.KeepsAll size) :
    p.reserveBuffer size = p ∨ p.reserveBuffer size = p.reallocate size := by
  rw [reserveBuffer]
  split_ifs with hle
  · exact .inl rfl
  · exact .inr (if_neg fun hrewinds => h ⟨not_le.mp hle, hrewinds⟩)

lemma sound_reserveBuffer (hp : p.Sound) {size : ℕ} (h : p.KeepsAll size) :
    (p.reserveBuffer size).Sound := by
  rcases reserveBuffer_eq h with heq | heq
  · rwa [heq]
  · rw [heq]
    exact sound_reallocate hp size

lemma decode_reserveBuffer (hp : p.Sound) {size : ℕ} (h : p.KeepsAll size) (more : List UInt8) :
    (p.reserveBuffer size).decode more = p.decode more := by
  rcases reserveBuffer_eq h with heq | heq
  · rw [heq]
  · rw [heq, decode_reallocate hp]

end Buffer

/-! ### Turns -/

section Turns

/-- What comes of reading bytes: some values, and those to come unless the bytes are malformed. -/
def Reads (p : Unpacker) (bytes : List UInt8) : List (Term (Leaf Double)) × Option Unpacker → Prop
  | (objs, some p') => p'.Sound ∧ p'.decode [] = ([], false) ∧
    ∀ more, p.decode (bytes ++ more) = (objs ++ (p'.decode more).1, (p'.decode more).2)
  | (objs, none) => ∀ more, p.decode (bytes ++ more) = (objs, true)

/-- What `next` leads to. -/
def Next.Sound (p : Unpacker) : Next → Prop
  | .taken obj p' => p'.Sound ∧ p'.used = p.used ∧ p.off < p'.off ∧
    ∀ more, p.decode more = (obj :: (p'.decode more).1, (p'.decode more).2)
  | .incomplete p' => p'.Sound ∧ p'.decode [] = ([], false) ∧ ∀ more, p.decode more = p'.decode more
  | .parseError => ∀ more, p.decode more = ([], true)

lemma sound_next (hp : p.Sound) : p.next.Sound p := by
  have hlength : ((p.memory p.buffer).take p.used).length = p.used :=
    List.length_take_of_le hp.used_le
  have hle : p.off ≤ ((p.memory p.buffer).take p.used).length := by
    rw [hlength]
    exact hp.off_le
  have hrounds : ((p.memory p.buffer).take p.used).length - p.off ≤ p.used - p.off := by rw [hlength]
  have hstops := stops_execute hp.context hle hrounds
  have hdecode := fun more => decode_execute (loads hp.used_le) hp.context hle more (p.used - p.off)
  rw [next]
  cases hexecute : p.context.execute p.buffer ((p.memory p.buffer).take p.used) p.off
    (p.used - p.off) with
  | next c off =>
    rw [hexecute] at hstops
    exact hstops.elim
  | wait c off =>
    rw [hexecute] at hstops hdecode
    obtain ⟨hc, hoff, hforward, hnone⟩ := hstops
    rw [hlength] at hoff
    have hsound : Sound { p with context := c, off } := by
      rcases hforward with ⟨rfl, rfl⟩ | hlt
      · exact hp
      · exact ⟨hc, hp.counter.trans hlt.le, fun _ => hp.counter.trans_lt hlt, hoff, hp.used_le,
          hp.initial⟩
    refine ⟨hsound, ?_, fun more => (hdecode more).symm⟩
    show c.decode _ (_ ++ []) = _
    rw [List.append_nil]
    exact hnone _
  | success obj referenced off =>
    rw [hexecute] at hstops hdecode
    obtain ⟨hlt, hoff⟩ := hstops
    rw [hlength] at hoff
    refine ⟨⟨⟨nofun, .inl rfl⟩, hp.counter.trans hlt.le, nofun, hoff, hp.used_le, hp.initial⟩, rfl,
      hlt, fun more => ?_⟩
    exact (hdecode more).symm.trans (decodeFrom_complete obj _)
  | parseError =>
    rw [hexecute] at hdecode
    exact fun more => (hdecode more).symm

/-- As many rounds as there are bytes, and one more, are enough. -/
lemma reads_nextAll (hp : p.Sound) {rounds : ℕ} (hrounds : p.used - p.off < rounds) :
    p.Reads [] (p.nextAll rounds) := by
  induction rounds generalizing p with
  | zero => exact absurd hrounds (Nat.not_lt_zero _)
  | succ rounds ih =>
    have hnext := sound_next hp
    rw [nextAll]
    cases heq : p.next with
    | taken obj p' =>
      rw [heq] at hnext
      obtain ⟨hp', hused, hoff, hdecode⟩ := hnext
      have hoff' := hp'.off_le
      have hrest := ih hp' (by omega)
      show p.Reads [] (obj :: (p'.nextAll rounds).1, (p'.nextAll rounds).2)
      cases hall : p'.nextAll rounds with
      | mk objs end_ =>
        rw [hall] at hrest
        cases end_ with
        | some p'' =>
          refine ⟨hrest.1, hrest.2.1, fun more => ?_⟩
          rw [List.nil_append, hdecode, ← List.nil_append more, hrest.2.2]
          rfl
        | none =>
          intro more
          rw [List.nil_append, hdecode, ← List.nil_append more, hrest]
    | incomplete p' =>
      rw [heq] at hnext
      exact hnext
    | parseError =>
      rw [heq] at hnext
      exact hnext

/-- A turn changes the values to come by those that it takes. -/
lemma reads_turn (hp : p.Sound) {size : ℕ} (h : p.KeepsAll size) (chunk : List UInt8) :
    p.Reads chunk (p.turn size chunk) := by
  have hreserve := sound_reserveBuffer hp h
  have hall := reads_nextAll (sound_bufferConsumed hreserve chunk) (Nat.lt_succ_self _)
  rw [turn]
  cases hturn : ((p.reserveBuffer size).bufferConsumed chunk).nextAll _ with
  | mk objs end_ =>
    rw [hturn] at hall
    have hdecode (more : List UInt8) : p.decode (chunk ++ more) =
        ((p.reserveBuffer size).bufferConsumed chunk).decode more := by
      rw [decode_bufferConsumed hreserve, decode_reserveBuffer hp h]
    cases end_ with
    | some p' =>
      refine ⟨hall.1, hall.2.1, fun more => ?_⟩
      rw [hdecode]
      exact hall.2.2 more
    | none =>
      intro more
      rw [hdecode]
      exact hall more

/-- In no turn the buffer is written from its beginning while an object refers to it. -/
def NeverRewinds (size : ℕ) (p : Unpacker) : List (List UInt8) → Prop
  | [] => True
  | chunk :: chunks => p.KeepsAll size ∧
    match (p.turn size chunk).2 with
    | some p => NeverRewinds size p chunks
    | none => True

instance decidableNeverRewinds (size : ℕ) :
    (p : Unpacker) → (chunks : List (List UInt8)) → Decidable (NeverRewinds size p chunks)
  | _, [] => isTrue trivial
  | p, chunk :: chunks =>
    have : Decidable (match (p.turn size chunk).2 with
        | some p => NeverRewinds size p chunks
        | none => True) :=
      match (p.turn size chunk).2 with
      | some p => decidableNeverRewinds size p chunks
      | none => isTrue trivial
    inferInstanceAs (Decidable (_ ∧ _))

/-- The room in the buffer is not changed by parsing. -/
def Next.Frees (p : Unpacker) : Next → Prop
  | .taken _ p' => p'.free = p.free
  | .incomplete p' => p'.free = p.free
  | .parseError => True

lemma frees_next : p.next.Frees p := by
  rw [next]
  cases p.context.execute p.buffer ((p.memory p.buffer).take p.used) p.off (p.used - p.off) with
  | next | wait | success => rfl
  | parseError => trivial

lemma free_nextAll {rounds : ℕ} {p' : Unpacker} (h : (p.nextAll rounds).2 = some p') :
    p'.free = p.free := by
  induction rounds generalizing p with
  | zero => exact congrArg free (Option.some.inj h).symm
  | succ rounds ih =>
    have hnext := frees_next (p := p)
    rw [nextAll] at h
    cases heq : p.next with
    | taken obj p'' =>
      rw [heq] at h hnext
      exact (ih h).trans hnext
    | incomplete p'' =>
      rw [heq] at h hnext
      exact (congrArg free (Option.some.inj h)).symm.trans hnext
    | parseError =>
      rw [heq] at h
      cases h

/-- Nothing is written over as long as there is room for the whole of the bytes. -/
lemma neverRewinds_of_le {size : ℕ} {chunks : List (List UInt8)}
    (h : chunks.flatten.length + size ≤ p.free) : NeverRewinds size p chunks := by
  induction chunks generalizing p with
  | nil => trivial
  | cons chunk chunks ih =>
    rw [List.flatten_cons, List.length_append] at h
    have hsize : size ≤ p.free := by omega
    refine ⟨fun hfree => absurd hfree.1 (not_lt.mpr hsize), ?_⟩
    have hreserve : p.reserveBuffer size = p := if_pos hsize
    cases hturn : (p.turn size chunk).2 with
    | none => trivial
    | some p' =>
      refine ih ?_
      have hfree : p'.free = p.free - chunk.length := by
        rw [turn, hreserve] at hturn
        exact free_nextAll hturn
      omega

/-- The turns change the values to come by those that they take. -/
lemma reads_turns (hp : p.Sound) (hnone : p.decode [] = ([], false)) {size : ℕ}
    (chunks : List (List UInt8)) (h : NeverRewinds size p chunks) :
    p.Reads chunks.flatten (turns size p chunks) := by
  induction chunks generalizing p with
  | nil => exact ⟨hp, hnone, fun _ => rfl⟩
  | cons chunk chunks ih =>
    obtain ⟨hkeeps, hrest⟩ := h
    have hturn := reads_turn hp hkeeps chunk
    rw [turns]
    cases heq : p.turn size chunk with
    | mk objs end_ =>
      rw [heq] at hturn hrest
      cases end_ with
      | some p' =>
        have hreads := ih hturn.1 hturn.2.1 hrest
        show p.Reads _ (objs ++ (turns size p' chunks).1, (turns size p' chunks).2)
        cases hturns : turns size p' chunks with
        | mk objs' end' =>
          rw [hturns] at hreads
          cases end' with
          | some p'' =>
            refine ⟨hreads.1, hreads.2.1, fun more => ?_⟩
            rw [List.flatten_cons, List.append_assoc, hturn.2.2, hreads.2.2, List.append_assoc]
          | none =>
            intro more
            rw [List.flatten_cons, List.append_assoc, hturn.2.2, hreads]
      | none =>
        intro more
        rw [List.flatten_cons, List.append_assoc]
        exact hturn _

/-- What a new unpacker makes of bytes. -/
lemma Reads.eq_values {initialBufferSize : ℕ} {bytes : List UInt8}
    {r : List (Term (Leaf Double)) × Option Unpacker} (h : (new initialBufferSize).Reads bytes r) :
    r.1 = values loadFloat bytes ∧ (r.2 = none ↔ malformed loadFloat bytes = true) := by
  have hdecode := decode_new initialBufferSize bytes
  rw [← List.append_nil bytes] at hdecode
  rcases r with ⟨objs, _ | p'⟩
  · rw [h, List.append_nil] at hdecode
    obtain ⟨hvalues, hmalformed⟩ := Prod.mk.inj hdecode
    exact ⟨hvalues, iff_of_true rfl hmalformed.symm⟩
  · rw [h.2.2, h.2.1, List.append_nil, List.append_nil] at hdecode
    obtain ⟨hvalues, hmalformed⟩ := Prod.mk.inj hdecode
    exact ⟨hvalues, iff_of_false nofun (by rw [← hmalformed]; exact Bool.false_ne_true)⟩

/-- However the bytes come, the objects are the values of the whole of them, and an exception is
thrown exactly when there is a byte that no token begins with. -/
theorem unpacks (initialBufferSize size : ℕ) (chunks : List (List UInt8))
    (h : NeverRewinds size (new initialBufferSize) chunks) :
    (turns size (new initialBufferSize) chunks).1 = values loadFloat chunks.flatten ∧
      ((turns size (new initialBufferSize) chunks).2 = none ↔
        malformed loadFloat chunks.flatten = true) :=
  (reads_turns (sound_new _) (decode_new _ []) chunks h).eq_values

/-- The string of an array that is not complete is in the second of three buffers. -/
theorem unpacks_array :
    let chunks : List (List UInt8) := [[0x93, 0xa2, 65], [66, 0xa3, 67], [68, 69, 7, 0xc1]]
    (turns 4 (new 10) chunks).1 = values loadFloat chunks.flatten ∧
      ((turns 4 (new 10) chunks).2 = none ↔ malformed loadFloat chunks.flatten = true) :=
  unpacks 10 4 _ (by decide)

/-- Where the buffer is written from its beginning again, the string of an unfinished array is not
what it has been. -/
example :
    let chunks : List (List UInt8) := [[0x92, 0xa2, 65, 66], [0xa3, 67, 68, 69]]
    leavesAll (turns 4 (new 10) chunks).1 = [.str [68, 69], .str [67, 68, 69]] ∧
      leavesAll (values loadFloat chunks.flatten) = [.str [65, 66], .str [67, 68, 69]] := by decide

/-- After any turns `reserve_buffer` makes the room that it is asked for, keeps the bytes that have
not been parsed, and leaves the strings of an unfinished object as they are. -/
theorem reserves (initialBufferSize size : ℕ) (chunks : List (List UInt8))
    (h : NeverRewinds size (new initialBufferSize) chunks)
    (hp : (turns size (new initialBufferSize) chunks).2 = some p) (size' : ℕ) :
    size' ≤ (p.reserveBuffer size').free ∧ (p.KeepsAll size' →
      (p.reserveBuffer size').unparsed = p.unparsed ∧
      ∀ a ∈ p.context.stack.flatMap Frame.leaves, ∀ s ∈ a.strings,
        load (p.reserveBuffer size').memory s = load p.memory s) := by
  have hreads := reads_turns (sound_new _) (decode_new _ []) chunks h
  rw [← Prod.eta (turns size (new initialBufferSize) chunks), hp] at hreads
  have hsound := hreads.1
  refine ⟨le_free_reserveBuffer hsound size', fun hkeeps => ?_⟩
  rcases reserveBuffer_eq hkeeps with heq | heq
  · rw [heq]
    exact ⟨rfl, fun _ _ _ _ => rfl⟩
  · rw [heq]
    refine ⟨unparsed_reallocate hsound size', fun a ha s hs => ?_⟩
    exact load_reallocate hsound size' (hsound.context.parsed a ha s hs)

/-- A string of an array that is not complete goes to an old buffer. -/
theorem reserves_array :
    let p := (turns 4 (new 10) [[0x93, 0xa2, 65], [66, 0xa3, 67]]).2.get (by decide)
    8 ≤ (p.reserveBuffer 8).free ∧ (p.KeepsAll 8 →
      (p.reserveBuffer 8).unparsed = p.unparsed ∧
      ∀ a ∈ p.context.stack.flatMap Frame.leaves, ∀ s ∈ a.strings,
        load (p.reserveBuffer 8).memory s = load p.memory s) :=
  reserves 10 4 _ (by decide) (Option.some_get _).symm 8

end Turns

end Dripcap.Unpacker
