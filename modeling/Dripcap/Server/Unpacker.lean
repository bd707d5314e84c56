import Dripcap.Library.MessagePack
import Dripcap.Script.Layer

/-!
# The unpacker of msgpack-c

`msgpack::unpacker` of `v2/unpack.hpp`, to which the loop of the server gives what it has read from
the socket. The parser goes through the bytes as far as there are enough of them and remembers where
it is inside of an object. The strings of an object are not copied: until the object is taken they
are places in the buffers of the parser, and the parser may need a new buffer before an object is
complete.

The visitor's stack of pointers goes along with the stack of the parser; together they are a stack of
arrays and maps that have begun. Memory does not run out, and the handles of objects that have been
taken are gone before more is read, as they are in the loops of the server.
-/

namespace Dripcap

open Polish MessagePack

/-- The number with these bits: a sign, `e` bits of an exponent and `m` bits of a fraction. -/
def Double.ofBits (e m n : ℕ) : Double :=
  let fraction := n % 2 ^ m
  let exponent := n / 2 ^ m % 2 ^ e
  let negative := n / 2 ^ (m + e) % 2 = 1
  let sign (x : ℚ) : ℚ := if negative then -x else x
  let bias : ℤ := 2 ^ (e - 1) - 1
  if exponent = 2 ^ e - 1 then
    if fraction = 0 then .infinite negative else .nan
  else if exponent = 0 then
    if fraction = 0 then
      if negative then .negZero else .finite 0
    else .finite (sign (fraction * 2 ^ (1 - bias - m)))
  else .finite (sign ((2 ^ m + fraction) * 2 ^ (exponent - bias - m)))

namespace Unpacker

/-- `union { uint32_t i; float f; }` and `union { uint64_t i; double f; }` -/
def loadFloat (data : List UInt8) : Double :=
  if data.length = 4 then .ofBits 8 23 (BigEndian.value data)
  else .ofBits 11 52 (BigEndian.value data)

/-- The type of the counter in front of a buffer is an `int`. -/
abbrev COUNTER_SIZE : ℕ := 4

/-- `MSGPACK_UNPACKER_INIT_BUFFER_SIZE` -/
abbrev INIT_BUFFER_SIZE : ℕ := 64 * 1024

/-- A pointer into one of the buffers that the parser has had, with a size. -/
structure Slice where
  buffer : ℕ
  start : ℕ
  size : ℕ
  deriving DecidableEq

/-- What the visitor makes: an object whose strings are in the buffers. -/
abbrev Visited : Type := Term (Scalar Slice Double)

/-- `msgpack_unpack_state` -/
inductive UnpackState where
  | header
  | bin8 | bin16 | bin32
  | ext8 | ext16 | ext32
  | float | double
  | uint8 | uint16 | uint32 | uint64
  | int8 | int16 | int32 | int64
  | fixext1 | fixext2 | fixext4 | fixext8 | fixext16
  | str8 | str16 | str32
  | array16 | array32
  | map16 | map32
  | strValue | binValue | extValue
  deriving DecidableEq

/-- `next_cs` for the bytes from `0xc4` to `0xdf`, and `trail[selector - 0xc4]`. -/
def trails : List (UnpackState × ℕ) :=
  [(.bin8, 1), (.bin16, 2), (.bin32, 4), (.ext8, 1), (.ext16, 2), (.ext32, 4), (.float, 4),
    (.double, 8), (.uint8, 1), (.uint16, 2), (.uint32, 4), (.uint64, 8), (.int8, 1), (.int16, 2),
    (.int32, 4), (.int64, 8), (.fixext1, 2), (.fixext2, 3), (.fixext4, 5), (.fixext8, 9),
    (.fixext16, 17), (.str8, 1), (.str16, 2), (.str32, 4), (.array16, 2), (.array32, 4), (.map16, 2),
    (.map32, 4)]

/-- `context`, with the members of the `create_object_visitor`. -/
structure Context where
  cs : UnpackState := .header
  trail : ℕ := 0
  stack : List (Frame (Scalar Slice Double)) := []
  referenced : Bool := false

/-- How a round of the loop of `execute` ends, with the new `m_current`. -/
inductive Round where
  | next (c : Context) (current : ℕ)
  /-- `UNPACK_CONTINUE`: there are not enough bytes. -/
  | wait (c : Context) (current : ℕ)
  /-- `UNPACK_SUCCESS` -/
  | success (obj : Visited) (referenced : Bool) (current : ℕ)
  /-- `parse_error` is thrown. -/
  | parseError

namespace Context

variable (c : Context) (buffer : ℕ) (data : List UInt8) (current : ℕ)

/-- What follows the visit of an object without parts, or the end of an array or a map without
any: `m_stack.consume`. -/
def proceed : Progress (Scalar Slice Double) → Round
  | .more stack => .next { c with cs := .header, stack } current
  | .complete obj => .success obj c.referenced current

/-- `visit_nil`, `visit_boolean`, `visit_positive_integer`, `visit_negative_integer` and
`visit_float`, with `after_visit_proc`. -/
def visit (scalar : Scalar Slice Double) : Round := c.proceed current (read c.stack (.leaf scalar))

/-- `visit_str`, `visit_bin` and `visit_ext`: the object refers to the buffer. -/
def visitSlice (make : Slice → Scalar Slice Double) (n size : ℕ) : Round :=
  { c with referenced := true }.visit current (make ⟨buffer, n, size⟩)

/-- `start_aggregate` -/
def startAggregate (token : Polish.Token (Scalar Slice Double)) : Round :=
  c.proceed current (read c.stack token)

/-- The trail of a string that follows its size; without one there is nothing to wait for. -/
def sizeRead (make : Slice → Scalar Slice Double) (value : UnpackState) (n trail : ℕ) : Round :=
  if trail = 0 then c.visitSlice buffer current make n 0
  else .next { c with cs := value, trail } current

/-- A round in the state `MSGPACK_CS_HEADER`. -/
def header (selector : ℕ) : Round :=
  if selector ≤ 0x7f then c.visit (current + 1) (.integer selector)
  else if 0xe0 ≤ selector then c.visit (current + 1) (.integer (selector - 256))
  else if 0xc4 ≤ selector then
    let next := trails.getD (selector - 0xc4) (.header, 0)
    .next { c with cs := next.1, trail := next.2 } (current + 1)
  else if 0xa0 ≤ selector ∧ selector ≤ 0xbf then
    c.sizeRead buffer (current + 1) .str .strValue 0 (selector &&& 0x1f)
  else if 0x90 ≤ selector ∧ selector ≤ 0x9f then
    c.startAggregate (current + 1) (.array (selector &&& 0x0f))
  else if 0x80 ≤ selector ∧ selector ≤ 0x8f then
    c.startAggregate (current + 1) (.map (selector &&& 0x0f))
  else if selector = 0xc2 then c.visit (current + 1) (.boolean false)
  else if selector = 0xc3 then c.visit (current + 1) (.boolean true)
  else if selector = 0xc0 then c.visit (current + 1) .nil
  else .parseError

/-- A round in another state, when there are enough bytes; `n` is where they begin, and `load` are
these bytes. -/
def trailing (n : ℕ) (load : List UInt8) : Round :=
  let current := n + c.trail
  match c.cs with
  | .float | .double => c.visit current (.float (loadFloat load))
  | .uint8 | .uint16 | .uint32 | .uint64 => c.visit current (.integer (BigEndian.value load))
  | .int8 | .int16 | .int32 | .int64 => c.visit current (.integer (signed load))
  | .fixext1 => c.visitSlice buffer current .ext n (1 + 1)
  | .fixext2 => c.visitSlice buffer current .ext n (2 + 1)
  | .fixext4 => c.visitSlice buffer current .ext n (4 + 1)
  | .fixext8 => c.visitSlice buffer current .ext n (8 + 1)
  | .fixext16 => c.visitSlice buffer current .ext n (16 + 1)
  | .str8 | .str16 | .str32 => c.sizeRead buffer current .str .strValue n (BigEndian.value load)
  | .bin8 | .bin16 | .bin32 => c.sizeRead buffer current .bin .binValue n (BigEndian.value load)
  | .ext8 | .ext16 | .ext32 => c.sizeRead buffer current .ext .extValue n (BigEndian.value load + 1)
  | .strValue => c.visitSlice buffer current .str n c.trail
  | .binValue => c.visitSlice buffer current .bin n c.trail
  | .extValue => c.visitSlice buffer current .ext n c.trail
  | .array16 | .array32 => c.startAggregate current (.array (BigEndian.value load))
  | .map16 | .map32 => c.startAggregate current (.map (BigEndian.value load))
  | .header => .parseError

/-- One round of the loop of `execute`. -/
def round : Round :=
  match c.cs with
  | .header =>
    match data[current]? with
    | some selector => c.header buffer current selector.toNat
    | none => .wait c current
  | _ =>
    if data.length - current < c.trail then .wait c current
    else c.trailing buffer current ((data.drop current).take c.trail)

/-- `execute`. Every round passes at least one byte. -/
def execute (c : Context) (buffer : ℕ) (data : List UInt8) (current : ℕ) : ℕ → Round
  | 0 => .wait c current
  | rounds + 1 =>
    match c.round buffer data current with
    | .next c current => execute c buffer data current rounds
    | r => r

end Context

/-- The bytes of a slice. -/
def load (memory : ℕ → List UInt8) (s : Slice) : List UInt8 :=
  ((memory s.buffer).drop s.start).take s.size

end Unpacker

open Unpacker

/-- `unpacker`. The content of a buffer begins with the counter. -/
structure Unpacker where
  context : Unpacker.Context := {}
  memory : ℕ → List UInt8 := fun _ => List.replicate COUNTER_SIZE 0
  /-- `m_buffer` -/
  buffer : ℕ := 0
  used : ℕ := COUNTER_SIZE
  free : ℕ
  off : ℕ := COUNTER_SIZE
  initialBufferSize : ℕ

namespace Unpacker

/-- A new `unpacker`. -/
def new (initialBufferSize : ℕ) : Unpacker where
  free := max initialBufferSize COUNTER_SIZE - COUNTER_SIZE
  initialBufferSize := max initialBufferSize COUNTER_SIZE

variable (p : Unpacker)

/-- `while (next_size < size) next_size *= 2`, for at most `rounds` rounds. -/
def grow (size next_size : ℕ) : ℕ → ℕ
  | 0 => next_size
  | rounds + 1 => if next_size < size then grow size (next_size * 2) rounds else next_size

/-- All bytes of the buffer have been parsed, and an object refers to them. -/
def Rewinds : Prop := p.used = p.off ∧ p.context.referenced

instance : Decidable p.Rewinds := inferInstanceAs (Decidable (_ ∧ _))

/-- The buffer is written from its beginning again, although an object refers to it. -/
def rewind : Unpacker :=
  { p with free := p.free + (p.used - COUNTER_SIZE), used := COUNTER_SIZE, off := COUNTER_SIZE }

/-- Another buffer with this content. The old one is freed unless an object refers to it; a buffer
that is free has no content. -/
def moveTo (content : List UInt8) (referenced : Bool) : ℕ → List UInt8 :=
  let memory := if referenced then p.memory else Function.update p.memory p.buffer []
  Function.update memory (p.buffer + 1) content

/-- If nothing in the buffer has been parsed it is reallocated, and may be at another place then.
Otherwise the bytes that have not been parsed go to the front of a new buffer. -/
def reallocate (size : ℕ) : Unpacker :=
  if p.off = COUNTER_SIZE then
    let next_size := grow (size + p.used) ((p.used + p.free) * 2) (size + p.used)
    { p with
      memory := p.moveTo (p.memory p.buffer) false
      buffer := p.buffer + 1
      free := next_size - p.used }
  else
    let not_parsed := p.used - p.off
    let next_size := grow (size + not_parsed + COUNTER_SIZE) p.initialBufferSize
      (size + not_parsed + COUNTER_SIZE)
    let counter := List.replicate COUNTER_SIZE 0
    { p with
      context := { p.context with referenced := false }
      memory := p.moveTo (counter ++ ((p.memory p.buffer).take p.used).drop p.off)
        p.context.referenced
      buffer := p.buffer + 1
      used := not_parsed + COUNTER_SIZE
      free := next_size - (not_parsed + COUNTER_SIZE)
      off := COUNTER_SIZE }

/-- `expand_buffer` -/
def expandBuffer (size : ℕ) : Unpacker :=
  if p.Rewinds then
    if size ≤ p.rewind.free then p.rewind else p.rewind.reallocate size
  else p.reallocate size

/-- `reserve_buffer` -/
def reserveBuffer (size : ℕ) : Unpacker := if size ≤ p.free then p else p.expandBuffer size

/-- Bytes are written to `buffer()`, and `buffer_consumed` is called. -/
def bufferConsumed (chunk : List UInt8) : Unpacker :=
  let m_buffer := p.memory p.buffer
  { p with
    memory := Function.update p.memory p.buffer
      (m_buffer.take p.used ++ chunk ++ m_buffer.drop (p.used + chunk.length))
    used := p.used + chunk.length
    free := p.free - chunk.length }

/-- What a call of `next` leads to. -/
inductive Next where
  /-- It returns `true`. -/
  | taken (result : Term (Leaf Double)) (unp : Unpacker)
  /-- It returns `false`. -/
  | incomplete (unp : Unpacker)
  /-- It throws. -/
  | parseError

/-- `next`. The strings of the object are looked up while its handle keeps the buffers. -/
def next : Next :=
  match p.context.execute p.buffer ((p.memory p.buffer).take p.used) p.off (p.used - p.off) with
  | .success obj _ off =>
    .taken (obj.mapLeaves (Scalar.mapStrings (load p.memory))) { p with context := {}, off }
  | .wait context off => .incomplete { p with context, off }
  | .next context off => .incomplete { p with context, off }
  | .parseError => .parseError

/-- `while (unp.next(result))`, for at most `rounds` rounds: the objects, and the unpacker unless it
throws. -/
def nextAll (p : Unpacker) : ℕ → List (Term (Leaf Double)) × Option Unpacker
  | 0 => ([], some p)
  | rounds + 1 =>
    match p.next with
    | .taken obj p => (obj :: (nextAll p rounds).1, (nextAll p rounds).2)
    | .incomplete p => ([], some p)
    | .parseError => ([], none)

/-- A turn of a loop that reserves `size` bytes, reads some and takes the objects that are complete.
Each of them has at least one byte. -/
def turn (size : ℕ) (chunk : List UInt8) : List (Term (Leaf Double)) × Option Unpacker :=
  let p := (p.reserveBuffer size).bufferConsumed chunk
  p.nextAll (p.used - p.off + 1)

/-- The turns for some chunks. -/
def turns (size : ℕ) (p : Unpacker) :
    List (List UInt8) → List (Term (Leaf Double)) × Option Unpacker
  | [] => ([], some p)
  | chunk :: chunks =>
    match p.turn size chunk with
    | (objs, some p) => (objs ++ (turns size p chunks).1, (turns size p chunks).2)
    | (objs, none) => (objs, none)

/-- `msgpack::unpack` of bytes that are all there: the first object, or nothing where it throws. -/
def unpack (data : List UInt8) : Option (Term (Leaf Double)) :=
  if data.length ≤ 0 then none
  else
    match ({} : Context).execute 0 data 0 data.length with
    | .success obj _ _ =>
      some (obj.mapLeaves (Scalar.mapStrings fun s => (data.drop s.start).take s.size))
    | .wait _ _ => none
    | .next _ _ => none
    | .parseError => none

end Unpacker

end Dripcap
