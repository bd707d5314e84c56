import Dripcap.Library.Delivery
import Dripcap.Server.Commands
import Dripcap.Server.Packed

/-!
# Sending replies

`ReplyInterface::operator()` packs a reply into the socket: each write of the packer is one call of
`Reply::write` of `darwin/msgpack_server.cpp` and so one call of `::write`. What that one has
accepted becomes a `bool`, and the packer drops it.
-/

namespace Dripcap.Server

open Delivery Packing Packer

/-- A connected socket. -/
structure Socket where
  /-- the number of calls of `::write` so far -/
  calls : ℕ := 0
  sent : List UInt8 := []

section Send

variable (bits : Double → UInt64) (b : Behaviour)

/-- `::write` on a blocking socket; `-1` if it is interrupted. -/
def Socket.write (sock : Socket) (data : List UInt8) : ℤ × Socket :=
  match b.accepts sock.calls data.length with
  | some n => (n, { calls := sock.calls + 1, sent := sock.sent ++ data.take n })
  | none => (-1, { sock with calls := sock.calls + 1 })

/-- `Reply::write` -/
def Reply.write (sock : Socket) (data : List UInt8) : Bool × Socket :=
  let r := sock.write b data
  (r.1 > 0, r.2)

/-- `packer::append_buffer` -/
def appendBuffer (sock : Socket) (data : List UInt8) : Socket := (Reply.write b sock data).2

/-- The calls of the packer for `std::tuple<uint32_t>` or `std::tuple<uint32_t, T>`; `arg` are those
for the `T`. -/
def tuple (id : UInt32) (arg : Option (List Token)) : List Token :=
  match arg with
  | none => [.packArray 1, .pack (.integer id.toNat)]
  | some ts => .packArray 2 :: .pack (.integer id.toNat) :: ts

/-- `ReplyInterface::operator()` -/
def ReplyInterface.call (sock : Socket) (id : UInt32) (arg : Option (List Token)) : Socket :=
  ((tuple id arg).flatMap (writes bits)).foldl (appendBuffer b) sock

/-- Replies one after the other. -/
def sendAll (sock : Socket) (replies : List (UInt32 × Option (List Token))) : Socket :=
  replies.foldl (fun sock r => ReplyInterface.call bits b sock r.1 r.2) sock

end Send

/-- What is written for a list of replies, in single writes. -/
def pieces (bits : Double → UInt64) (replies : List (UInt32 × Option (List Token))) :
    List (List UInt8) :=
  replies.flatMap fun r => (tuple r.1 r.2).flatMap (writes bits)

section Properties

variable {bits : Double → UInt64} {b : Behaviour}

lemma appendBuffer_eq (sock : Socket) (data : List UInt8) : appendBuffer b sock data =
    { calls := sock.calls + 1, sent := sock.sent ++ b.taken sock.calls data } := by
  rw [appendBuffer, Reply.write, Socket.write, Behaviour.taken]
  cases b.accepts sock.calls data.length with
  | some n => rfl
  | none => rw [List.append_nil]

/-- The packer does not notice what has been accepted. -/
lemma sent_foldl (sock : Socket) (ds : List (List UInt8)) :
    (ds.foldl (appendBuffer b) sock).sent = sock.sent ++ b.sent sock.calls ds := by
  induction ds generalizing sock with
  | nil => exact (List.append_nil _).symm
  | cons d ds ih =>
    rw [List.foldl_cons, ih, appendBuffer_eq, Behaviour.sent, List.append_assoc]

lemma sendAll_eq (sock : Socket) (replies : List (UInt32 × Option (List Token))) :
    sendAll bits b sock replies = (pieces bits replies).foldl (appendBuffer b) sock := by
  induction replies generalizing sock with
  | nil => rfl
  | cons r replies ih =>
    rw [pieces, List.flatMap_cons, List.foldl_append]
    exact ih _

lemma flatten_pieces (replies : List (UInt32 × Option (List Token))) :
    (pieces bits replies).flatten = replies.flatMap fun r => encode bits (tuple r.1 r.2) := by
  rw [pieces, List.flatMap_def, List.flatten_flatten, List.map_map]
  rfl

/-- The bytes of a call that writes an array of objects are those of its value. -/
lemma encodes_array {ts : List Token} {os : List Object} (hos : os.length < 2 ^ 32)
    (hfits : ∀ t ∈ ts, TokenFits bits t) (h : Token.ReadsArray ts os) :
    MessagePack.Encodes Unpacker.loadFloat [valueOf bits (.array os)]
      (encode bits (.packArray os.length :: ts)) := by
  have hfits' : ∀ t ∈ .packArray os.length :: ts, TokenFits bits t :=
    List.forall_mem_cons.mpr ⟨hos, hfits⟩
  obtain ⟨hfit, hencode⟩ := encode_of_reads hfits' h.reads
  rw [hencode]
  exact encodes_pack _ hfit

/-- What should be sent for a reply is the MessagePack value `[id]` or `[id, result]`. -/
theorem encodes_tuple (id : UInt32) : MessagePack.Encodes Unpacker.loadFloat
      [valueOf bits (.array [.integer id.toNat])] (encode bits (tuple id none)) ∧
    ∀ ts o, (∀ t ∈ ts, TokenFits bits t) → Token.Reads ts o →
      MessagePack.Encodes Unpacker.loadFloat [valueOf bits (.array [.integer id.toNat, o])]
        (encode bits (tuple id (some ts))) := by
  have hid : TokenFits bits (.pack (.integer id.toNat)) := by
    have hlt := id.toNat_lt
    show (-2 ^ 63 ≤ (id.toNat : ℤ) ∧ (id.toNat : ℤ) < 2 ^ 64)
    omega
  have hread := Token.reads_pack (.integer id.toNat)
  constructor
  · exact encodes_array (by simp) (List.forall_mem_singleton.mpr hid)
      (Token.ReadsArray.cons hread Token.readsArray_nil)
  · intro ts o hfits h
    have hos := Token.ReadsArray.cons h Token.readsArray_nil
    rw [List.append_nil] at hos
    exact encodes_array (by simp) (List.forall_mem_cons.mpr ⟨hid, hfits⟩) (Token.ReadsArray.cons hread hos)

end Properties

/-- Replies reach the client whole, as `[id]` or `[id, result]` one after the other, exactly when
each write is accepted whole. That the bytes are those of these values is `encodes_pack`, put
together for a reply in `encodes_tuple`. -/
theorem replies_whole_iff (bits : Double → UInt64) (b : Behaviour)
    (replies : List (UInt32 × Option (List Token))) :
    (sendAll bits b {} replies).sent = (replies.flatMap fun r => encode bits (tuple r.1 r.2)) ↔
      b.Whole 0 (pieces bits replies) := by
  rw [sendAll_eq, sent_foldl, ← flatten_pieces, ← Behaviour.sent_eq_iff]
  rfl

/-- The first call of `write` is interrupted. -/
def interruptedOnce : Behaviour where
  accepts i length := if i = 0 then none else some length
  le_length i length n h := by
    split_ifs at h
    exact (Option.some.inj h).ge
  positive i length n h hpos := by
    split_ifs at h
    exact (Option.some.inj h) ▸ hpos

/-- Each call of `write` accepts one byte. -/
def oneByte : Behaviour where
  accepts _ length := if length = 0 then none else some 1
  le_length i length n h := by
    split_ifs at h with hlength
    obtain rfl := Option.some.inj h
    exact Nat.pos_of_ne_zero hlength
  positive i length n h _ := by
    split_ifs at h with hlength
    obtain rfl := Option.some.inj h
    exact Nat.one_pos

/-- After an interruption the header of the first reply is missing. Where each call accepts one
byte, the size of a `bin` and its second byte are missing, and the next reply is taken for its
bytes. -/
theorem not_replies_whole :
    let bits : Double → UInt64 := fun _ => 0
    let pings : List (UInt32 × Option (List Token)) := [(1, none), (2, none)]
    let data : List (UInt32 × Option (List Token)) := [(1, some [.pack (.bin [7, 8])]), (2, none)]
    ((sendAll bits interruptedOnce {} pings).sent ≠
        (pings.flatMap fun r => encode bits (tuple r.1 r.2)) ∧
      (sendAll bits interruptedOnce {} pings).sent = [1, 0x91, 2]) ∧
    ((sendAll bits oneByte {} data).sent ≠
        (data.flatMap fun r => encode bits (tuple r.1 r.2)) ∧
      (sendAll bits oneByte {} data).sent = [0x92, 1, 0xc4, 7, 0x91, 2]) := by
  decide

end Dripcap.Server
