import Dripcap.Script.Packing
import Dripcap.Server.Packed
import Dripcap.Server.UnpackedStream

/-!
# Packets as bytes

Packets that are packed one after the other come out of the unpacker as they have been, whatever
pieces their bytes are read in (`packets_stream`). The layers of a packet are packed into an
extension of the packet, which `msgpack::unpack` takes apart.
-/

namespace Dripcap.Packing

open MessagePack Packer Unpacker

section Objects

variable (bits : Double → UInt64) (text : List UInt8 → String)

mutual

/-- The object of a value; `ext` makes the extensions. -/
def objectWith (ext : List UInt8 → Object) : Polish.Term (Leaf Double) → Object
  | .leaf .nil => .nil
  | .leaf (.boolean b) => .boolean b
  | .leaf (.integer d) => .integer d
  | .leaf (.float d) => .float d
  | .leaf (.str s) => .str (text s)
  | .leaf (.bin data) => .bin data
  | .leaf (.ext data) => ext data
  | .array ts => .array (objectsWith ext ts)
  | .map kvs => .map (pairsWith ext kvs)

def objectsWith (ext : List UInt8 → Object) : List (Polish.Term (Leaf Double)) → List Object
  | [] => []
  | t :: ts => objectWith ext t :: objectsWith ext ts

def pairsWith (ext : List UInt8 → Object) :
    List (Polish.Term (Leaf Double) × Polish.Term (Leaf Double)) → List (Object × Object)
  | [] => []
  | (k, v) :: kvs => (objectWith ext k, objectWith ext v) :: pairsWith ext kvs

end

/-- The extension types whose bytes may be those of an object. -/
def packedType (type : ℤ) : Option PackedType :=
  if type = number .payload then some .payload
  else if type = number .classInstance then some .classInstance
  else none

/-- An extension whose bytes begin with its type. Extensions in extensions are looked at up to some
depth. -/
def extOf : ℕ → List UInt8 → Object
  | 0, data => .ext (signed (data.take 1)) data.tail
  | depth + 1, data =>
    match packedType (signed (data.take 1)), values loadFloat data.tail with
    | some type, [v] =>
      let o := objectWith text (extOf depth) v
      if (pack bits o).flatten = data.tail then .extPacked type o
      else .ext (signed (data.take 1)) data.tail
    | _, _ => .ext (signed (data.take 1)) data.tail

/-- The object of a value. -/
def objectOf (depth : ℕ) (v : Polish.Term (Leaf Double)) : Object :=
  objectWith text (extOf bits text depth) v

variable {bits text}

lemma packedType_number (type : PackedType) : packedType (number type) = some type := by
  cases type <;> rfl

lemma number_of_packedType {type : ℤ} {packed : PackedType} (h : packedType type = some packed) :
    type = number packed := by
  unfold packedType at h
  split_ifs at h with hpayload hclass
  · obtain rfl := Option.some.inj h
    exact hpayload
  · obtain rfl := Option.some.inj h
    exact hclass

/-- The type of an extension is the first of its bytes. -/
lemma signed_type {type : ℤ} (h : -2 ^ 7 ≤ type ∧ type < 2 ^ 7) (data : List UInt8) :
    signed ((UInt8.ofInt type :: data).take 1) = type := by
  have hstore : (UInt8.ofInt type :: data).take 1 = store 1 type := rfl
  rw [hstore]
  exact signed_store (by omega) (by omega)

lemma extOf_ext {depth : ℕ} {type : ℤ} {data : List UInt8} (h : Fits bits (.ext type data)) :
    extOf bits text depth (UInt8.ofInt type :: data) = .ext type data := by
  obtain ⟨_, hrange, hpacked⟩ := h
  have htype := signed_type hrange data
  cases depth with
  | zero => rw [extOf, htype, List.tail_cons]
  | succ depth =>
    rw [extOf, htype, List.tail_cons]
    split
    · rename_i packed v heq _
      exact if_neg (hpacked packed _ (number_of_packedType heq))
    · rfl

lemma length_packExt_pos (l : ℕ) (type : ℤ) : 0 < (packExt l type).length := by
  unfold packExt
  split
  · exact Nat.succ_pos _
  · exact Nat.succ_pos _
  · exact Nat.succ_pos _
  · exact Nat.succ_pos _
  · exact Nat.succ_pos _
  · split_ifs
    · exact Nat.succ_pos _
    · exact Nat.succ_pos _
    · exact Nat.succ_pos _

mutual

/-- The object of the value of an object is this object. -/
lemma objectOf_valueOf (htext : ∀ s, text (Unicode.utf8 s) = s) : (o : Object) → Fits bits o →
    (depth : ℕ) → (pack bits o).flatten.length ≤ depth → objectOf bits text depth (valueOf bits o) = o
  | .nil, _, _, _ => rfl
  | .boolean _, _, _, _ => rfl
  | .integer _, _, _, _ => rfl
  | .float _, _, _, _ => rfl
  | .str s, _, _, _ => congrArg Object.str (htext s)
  | .bin _, _, _, _ => rfl
  | .array os, h, depth, hdepth => by
    rw [pack, List.flatten_cons, List.length_append] at hdepth
    exact congrArg Object.array (objectsWith_valuesOf htext os h.2 depth (by omega))
  | .map kvs, h, depth, hdepth => by
    rw [pack, List.flatten_cons, List.length_append] at hdepth
    exact congrArg Object.map (pairsWith_pairsOf htext kvs h.2 depth (by omega))
  | .ext type data, h, _, _ => extOf_ext h
  | .extPacked type o, h, depth, hdepth => by
    rw [pack, List.flatten_cons, List.flatten_singleton, List.length_append] at hdepth
    have hheader := length_packExt_pos (pack bits o).flatten.length (number type)
    obtain ⟨depth, rfl⟩ : ∃ d, depth = d + 1 := ⟨depth - 1, by omega⟩
    have hrange : -2 ^ 7 ≤ number type ∧ number type < 2 ^ 7 := by cases type <;> decide
    have hinner : objectWith text (extOf bits text depth) (valueOf bits o) = o :=
      objectOf_valueOf htext o h.2 depth (by omega)
    show extOf bits text (depth + 1) (UInt8.ofInt (number type) :: (pack bits o).flatten) = _
    rw [extOf, signed_type hrange, packedType_number, List.tail_cons,
      values_of_encodes (encodes_pack o h.2)]
    exact (if_pos (congrArg (fun o => (pack bits o).flatten) hinner)).trans
      (congrArg (Object.extPacked type) hinner)

lemma objectsWith_valuesOf (htext : ∀ s, text (Unicode.utf8 s) = s) : (os : List Object) →
    FitAll bits os → (depth : ℕ) → (packAll bits os).flatten.length ≤ depth →
      objectsWith text (extOf bits text depth) (valuesOf bits os) = os
  | [], _, _, _ => rfl
  | o :: os, h, depth, hdepth => by
    rw [packAll, List.flatten_append, List.length_append] at hdepth
    have hfirst : objectWith text (extOf bits text depth) (valueOf bits o) = o :=
      objectOf_valueOf htext o h.1 depth (by omega)
    rw [valuesOf, objectsWith, hfirst, objectsWith_valuesOf htext os h.2 depth (by omega)]

lemma pairsWith_pairsOf (htext : ∀ s, text (Unicode.utf8 s) = s) : (kvs : List (Object × Object)) →
    FitPairs bits kvs → (depth : ℕ) → (packPairs bits kvs).flatten.length ≤ depth →
      pairsWith text (extOf bits text depth) (pairsOf bits kvs) = kvs
  | [], _, _, _ => rfl
  | (key, val) :: kvs, h, depth, hdepth => by
    rw [packPairs, List.flatten_append, List.flatten_append, List.length_append,
      List.length_append] at hdepth
    have hkey : objectWith text (extOf bits text depth) (valueOf bits key) = key :=
      objectOf_valueOf htext key h.1 depth (by omega)
    have hval : objectWith text (extOf bits text depth) (valueOf bits val) = val :=
      objectOf_valueOf htext val h.2.1 depth (by omega)
    rw [pairsOf, pairsWith, hkey, hval, pairsWith_pairsOf htext kvs h.2.2 depth (by omega)]

end

end Objects

/-! ### Packets -/

section Packets

variable (bits : Double → UInt64) (text : List UInt8 → String)

/-- The object that `msgpack::unpack` makes of bytes. -/
def unpackObject (data : List UInt8) : Option Object :=
  (Unpacker.unpack data).map (objectOf bits text data.length)

/-- The bytes of an object. -/
def bytesOf (o : Object) : List UInt8 := (pack bits o).flatten

/-- `convert<PacketPtr>` of the object of a value. -/
def packetOf [Platform] (depth : ℕ) (v : Polish.Term (Leaf Double)) : Option RawPacket :=
  convertPacket text (unpackObject bits text) (bytesOf bits) (objectOf bits text depth v)

/-- What is written for a packet has a representation, and no key of a layer is that of a member. -/
structure PacketFits [Platform] (pkt : RawPacket) : Prop where
  keyed : KeyedList pkt.layers
  packet : ∀ t ∈ packPacket (encode bits) pkt, TokenFits bits t
  layers : ∀ t ∈ packLayers pkt.layers, TokenFits bits t

variable {bits text}

/-- What is read back on the level of calls is read back on the level of bytes. -/
lemma unpackObject_encode (htext : ∀ s, text (Unicode.utf8 s) = s) {ts : List Token} {o : Object}
    (hfits : ∀ t ∈ ts, TokenFits bits t) (h : Token.Reads ts o) :
    unpackObject bits text (encode bits ts) = some o := by
  obtain ⟨hfit, hencode⟩ := encode_of_reads hfits h
  rw [unpackObject, unpack_eq, hencode, values_of_encodes (encodes_pack o hfit)]
  exact congrArg some (objectOf_valueOf htext o hfit _ le_rfl)

lemma mapM_of_forall {α : Type} {f : α → Option α} {as : List α} (h : ∀ a ∈ as, f a = some a) :
    as.mapM f = some as := by
  induction as with
  | nil => rfl
  | cons a as ih =>
    obtain ⟨hfirst, hrest⟩ := List.forall_mem_cons.mp h
    rw [List.mapM_cons, hfirst, Option.bind_eq_bind, Option.bind_some, ih hrest]
    rfl

variable [Platform]

/-- The bytes of a packet. -/
def packetBytes (bits : Double → UInt64) (pkt : RawPacket) : List UInt8 :=
  encode bits (packPacket (encode bits) pkt)

/-- The value of a packet. -/
def packetValue (bits : Double → UInt64) (pkt : RawPacket) : Polish.Term (Leaf Double) :=
  valueOf bits (.map (entryMap (packetMembers (encode bits) pkt)))

lemma encodes_packetBytes {pkt : RawPacket} (h : PacketFits bits pkt) :
    Encodes loadFloat [packetValue bits pkt] (packetBytes bits pkt) := by
  obtain ⟨hfit, hencode⟩ := encode_of_reads h.packet (reads_packPacket (encode bits) pkt)
  rw [packetBytes, hencode]
  exact encodes_pack _ hfit

lemma packetOf_packetValue (htext : ∀ s, text (Unicode.utf8 s) = s) {pkt : RawPacket}
    (h : PacketFits bits pkt) {depth : ℕ} (hdepth : (packetBytes bits pkt).length ≤ depth) :
    packetOf bits text depth (packetValue bits pkt) = some pkt := by
  have hreads := reads_packPacket (encode bits) pkt
  obtain ⟨hfit, hencode⟩ := encode_of_reads h.packet hreads
  rw [packetBytes, hencode] at hdepth
  have hlayers := reads_packLayers pkt.layers
  have hcodec : unpackObject bits text (encode bits (packLayers pkt.layers)) =
      Token.unpack (packLayers pkt.layers) := by
    rw [unpackObject_encode htext h.layers hlayers, hlayers.unpack]
  have hconvert := convertPacket_packPacket text h.keyed hcodec (bytesOf bits)
  rw [hreads.unpack, Option.bind_some] at hconvert
  rw [packetOf, packetValue, objectOf_valueOf htext _ hfit _ hdepth, hconvert]

lemma encodes_packets {pkts : List RawPacket} (h : ∀ pkt ∈ pkts, PacketFits bits pkt) :
    Encodes loadFloat (pkts.map (packetValue bits)) (pkts.flatMap (packetBytes bits)) := by
  induction pkts with
  | nil => exact .nil
  | cons pkt pkts ih =>
    obtain ⟨hpkt, hpkts⟩ := List.forall_mem_cons.mp h
    rw [List.map_cons, List.flatMap_cons]
    exact (encodes_packetBytes hpkt).cons (ih hpkts)

/-- Packets that are packed one after the other come out of the unpacker as they have been, whatever
pieces their bytes are read in. -/
theorem packets_stream (htext : ∀ s, text (Unicode.utf8 s) = s) {pkts : List RawPacket}
    (hpkts : ∀ pkt ∈ pkts, PacketFits bits pkt) (initialBufferSize size : ℕ)
    {chunks : List (List UInt8)} (hchunks : chunks.flatten = pkts.flatMap (packetBytes bits))
    (hrewinds : NeverRewinds size (new initialBufferSize) chunks) :
    let r := turns size (new initialBufferSize) chunks
    r.1.mapM (packetOf bits text chunks.flatten.length) = some pkts ∧ r.2 ≠ none := by
  intro r
  obtain ⟨hvalues, hthrown⟩ := (reads_turns (sound_new _) (decode_new _ []) chunks hrewinds).eq_values
  have hencodes := encodes_packets hpkts
  rw [hchunks, values_of_encodes hencodes] at hvalues
  rw [hchunks, malformed_of_encodes hencodes] at hthrown
  refine ⟨?_, fun hnone => absurd (hthrown.mp hnone) Bool.false_ne_true⟩
  rw [show r.1 = _ from hvalues, List.mapM_map]
  refine mapM_of_forall fun pkt hpkt => packetOf_packetValue htext (hpkts pkt hpkt) ?_
  rw [hchunks, List.flatMap_def]
  exact (List.sublist_flatten_of_mem (List.mem_map_of_mem hpkt)).length_le

end Packets

/-- A packet with a layer that refers to a part of the payload. -/
def payloadPacket : RawPacket where
  id := 1
  payload := [7, 8]
  layers := [("E", .mk "N" "" (.extPacked .payload (.array [.integer 0, .integer 2])) [("a", .nil)] [] [])]

/-- A layer with a stream. -/
def tcpLayer : RawLayer :=
  .mk "E::T" "TCP" .nil [("seq", .integer 300)] []
    [⟨"TCP Stream", "E::T", "a/b", .extPacked .payload (.array [.integer 1, .integer 3]), .end⟩]

/-- A packet with a layer in a layer. -/
def nestedPacket : RawPacket where
  id := 2
  ts_sec := 5
  len := 3
  payload := [7, 8, 9]
  layers := [("E", .mk "E" "Ethernet" (.bin [7, 8, 9]) [] [("T", tcpLayer)] [])]

lemma forall_packedType {P : PackedType → Prop} :
    (∀ type, P type) ↔ P .payload ∧ P .classInstance :=
  ⟨fun h => ⟨h _, h _⟩, fun ⟨hpayload, hclass⟩ type => by cases type <;> assumption⟩

lemma keyedList_singleton {key : String} {l : RawLayer} (hl : l.Keyed) : KeyedList [(key, l)] := by
  refine ⟨List.nodup_singleton _, fun p hp => ?_⟩
  obtain rfl := List.mem_singleton.mp hp
  exact hl

lemma unreserved_singleton {key : String} (hkey : key ∉ reserved) (o : Object) :
    Unreserved [(key, o)] := by
  refine ⟨List.nodup_singleton _, fun k hk => ?_⟩
  obtain rfl := List.mem_singleton.mp hk
  exact hkey

lemma fits_payloadPacket : PacketFits (fun _ => 0) payloadPacket := by
  refine ⟨keyedList_singleton (.mk (unreserved_singleton (by decide) _) keyedList_nil.nodup
    keyedList_nil.layers), ?_, ?_⟩
  · simp only [packPacket, payloadPacket, List.forall_mem_cons, TokenFits, Fits, IsInteger,
      forall_packedType, List.not_mem_nil, false_imp_iff, implies_true, and_true, true_and]
    decide
  · simp only [packLayers, packEntries, packLayer, payloadPacket, packStreams, List.flatMap_cons,
      List.flatMap_nil, List.cons_append, List.nil_append, List.append_nil, List.forall_mem_cons,
      TokenFits, Fits, FitAll, IsInteger, List.not_mem_nil, false_imp_iff, implies_true, and_true,
      true_and]
    decide

lemma fits_nestedPacket : PacketFits (fun _ => 0) nestedPacket := by
  have hlayer : KeyedList [("T", tcpLayer)] :=
    keyedList_singleton (.mk (unreserved_singleton (by decide) _) keyedList_nil.nodup
      keyedList_nil.layers)
  refine ⟨keyedList_singleton (.mk ⟨List.nodup_nil, nofun⟩ hlayer.nodup hlayer.layers), ?_, ?_⟩
  · simp only [packPacket, nestedPacket, List.forall_mem_cons, TokenFits, Fits, IsInteger,
      forall_packedType, List.not_mem_nil, false_imp_iff, implies_true, and_true, true_and]
    decide +kernel
  · simp only [packLayers, packEntries, packLayer, nestedPacket, tcpLayer, packStreams, packStream,
      List.flatMap_cons, List.flatMap_nil, List.cons_append, List.nil_append, List.append_nil,
      List.forall_mem_cons, TokenFits, Fits, FitAll, IsInteger, List.not_mem_nil, false_imp_iff,
      implies_true, and_true, true_and]
    decide +kernel

/-- Two packets in three pieces; the second piece begins and ends in the middle of a packet. -/
theorem packets_stream_two :
    let data := [payloadPacket, nestedPacket].flatMap (packetBytes fun _ => 0)
    let chunks : List (List UInt8) := [data.take 9, (data.drop 9).take 200, (data.drop 9).drop 200]
    let r := turns 256 (new 1024) chunks
    r.1.mapM (packetOf (fun _ => 0) Unicode.ofUtf8 chunks.flatten.length) =
        some [payloadPacket, nestedPacket] ∧ r.2 ≠ none := by
  intro data chunks
  have hpkts : ∀ pkt ∈ [payloadPacket, nestedPacket], PacketFits (fun _ => 0) pkt := by
    simp only [List.forall_mem_cons, List.not_mem_nil, false_imp_iff, implies_true, and_true]
    exact ⟨fits_payloadPacket, fits_nestedPacket⟩
  have hchunks : chunks.flatten = data := by
    simp only [chunks, List.flatten_cons, List.flatten_nil, List.append_nil, List.take_append_drop]
  have hroom : chunks.flatten.length + 256 ≤ (new 1024).free := by
    have hlength : data.length ≤ 500 := by decide +kernel
    rw [hchunks]
    exact (Nat.add_le_add_right hlength 256).trans (by decide)
  exact packets_stream Unicode.ofUtf8_utf8 hpkts 1024 256 hchunks (neverRewinds_of_le hroom)

end Dripcap.Packing
