import Dripcap.Script.Packer
import Dripcap.Script.Wrapper
import Mathlib.Data.List.Nodup

/-!
# Packets as msgpack

The functions `pack` and `convert` of `packet.hpp`, `layer.hpp` and `packet_stream.hpp`. The map of
a layer holds its `ext` next to its fixed members, so that a packet is the same after both of them
only if no key of an `ext` is one of a fixed member. Here `ext` may have any keys, and the condition
is what has to be proved of every function that builds a layer.
-/

namespace Dripcap

/-- The systems that the server is built for, GCC and clang for the first, MSVC for the second. -/
class inductive Platform where
  | posix
  | win32

/-- Where no platform is named, it is this one. -/
instance : Platform := .posix

namespace Packing

/-- `Layer` with any `ext`. -/
inductive RawLayer where
  | mk (ns name : String) (payload : Object) (ext : List (String × Object))
      (layers : List (String × RawLayer)) (streams : List PacketStream) : RawLayer

/-- `LayerList` -/
abbrev RawLayerList := List (String × RawLayer)

/-- `Packet` -/
@[ext]
structure RawPacket where
  id : UInt64 := 0
  ts_sec : UInt64 := 0
  ts_nsec : UInt32 := 0
  len : UInt32 := 0
  payload : List UInt8 := []
  stream : String := ""
  layers : RawLayerList := []

/-- The keys are those of a map, and none of them belongs to a fixed member. -/
structure Unreserved (ext : List (String × Object)) : Prop where
  nodup : (ext.map Prod.fst).Nodup
  unreserved : ∀ k ∈ ext.map Prod.fst, k ∉ reserved

/-- The key condition for a layer and all layers in it. -/
inductive RawLayer.Keyed : RawLayer → Prop
  | mk {ns name : String} {payload : Object} {ext : List (String × Object)} {layers : RawLayerList}
      {streams : List PacketStream} (hext : Unreserved ext) (hnodup : (layers.map Prod.fst).Nodup)
      (hlayers : ∀ p ∈ layers, p.2.Keyed) : RawLayer.Keyed (.mk ns name payload ext layers streams)

/-- The key condition for a list of layers. -/
structure KeyedList (layers : RawLayerList) : Prop where
  nodup : (layers.map Prod.fst).Nodup
  layers : ∀ p ∈ layers, p.2.Keyed

/-! ### Flags -/

section Flags

/-- The bits of a flag. -/
def flagBits : StreamFlag → ℕ
  | .noop => 0
  | .end => 1
  | .other n => n.val

/-- `static_cast<StreamFlag>` -/
def flagOf (n : ℤ) : StreamFlag :=
  if h : 1 < (n % 2 ^ 32).toNat then .other ⟨(n % 2 ^ 32).toNat, h, by omega⟩
  else if (n % 2 ^ 32).toNat = 0 then .noop
  else .end

lemma flagBits_lt (flag : StreamFlag) : flagBits flag < 2 ^ 32 := by
  cases flag with
  | noop => decide
  | «end» => decide
  | other n => exact n.property.2

lemma flagOf_bits {flag : StreamFlag} {n : ℤ} (h : n % 2 ^ 32 = flagBits flag) :
    flagOf n = flag := by
  unfold flagOf
  simp only [h, Int.toNat_natCast]
  cases flag with
  | noop => rfl
  | «end» => rfl
  | other n => exact dif_pos n.property.1

variable [p : Platform]

/-- The least number of the underlying type of `StreamFlag`, which is `unsigned int` with GCC and
clang and `int` with MSVC. -/
def leastFlag : ℤ :=
  match p with
  | .posix => 0
  | .win32 => -2 ^ 31

/-- The number of the underlying type with the bits of a flag. -/
def flagNumber (flag : StreamFlag) : ℤ := leastFlag + (flagBits flag - leastFlag) % 2 ^ 32

/-- `as<StreamFlag>`, as `MSGPACK_ADD_ENUM` defines it: any number of the underlying type is made a
flag. -/
def asFlag : Object → Option StreamFlag
  | .integer n => if leastFlag ≤ n ∧ n < leastFlag + 2 ^ 32 then some (flagOf n) else none
  | _ => none

lemma asFlag_flagNumber (flag : StreamFlag) : asFlag (.integer (flagNumber flag)) = some flag := by
  have hlt := flagBits_lt flag
  have hbound : leastFlag ≤ flagNumber flag ∧ flagNumber flag < leastFlag + 2 ^ 32 := by
    rw [flagNumber]
    omega
  have hbits : flagNumber flag % 2 ^ 32 = flagBits flag := by
    rw [flagNumber]
    omega
  rw [asFlag, if_pos hbound, flagOf_bits hbits]

example : asFlag (p := .posix) (.integer (-1)) = none ∧
    asFlag (p := .win32) (.integer (-1)) = some (.other ⟨2 ^ 32 - 1, by decide⟩) := by decide

end Flags

/-! ### Writing -/

section Pack

variable [Platform]

open Token

/-- `pack<PacketStreamPtr>` -/
def packStream (v : PacketStream) : List Token :=
  [packMap 5, pack (.str "name"), pack (.str v.name), pack (.str "namespace"), pack (.str v.ns),
    pack (.str "id"), pack (.str v.id), pack (.str "data"), pack v.data, pack (.str "flag"),
    pack (.integer (flagNumber v.flag))]

/-- `pack` of a `PacketStreamList` -/
def packStreams (v : List PacketStream) : List Token :=
  packArray v.length :: v.flatMap packStream

mutual

/-- `pack<LayerPtr>` -/
def packLayer : RawLayer → List Token
  | .mk ns name payload ext layers streams =>
    packMap (5 + ext.length) :: ((ext.flatMap fun p => [pack (.str p.1), pack p.2]) ++
      ([pack (.str "namespace"), pack (.str ns), pack (.str "name"), pack (.str name),
        pack (.str "payload"), pack payload, pack (.str "layers")] ++
        (packMap layers.length :: packEntries layers) ++
        pack (.str "streams") :: packStreams streams))

/-- The entries of a `LayerList`. -/
def packEntries : RawLayerList → List Token
  | [] => []
  | (key, layer) :: layers => pack (.str key) :: (packLayer layer ++ packEntries layers)

end

/-- `pack` of a `LayerList` -/
def packLayers (v : RawLayerList) : List Token := packMap v.length :: packEntries v

/-- `pack<Packet>`; `encode` makes the bytes of what has been written to a packer. -/
def packPacket (encode : List Token → List UInt8) (v : RawPacket) : List Token :=
  let str := encode (packLayers v.layers)
  [packMap 7, pack (.str "id"), pack (.integer v.id.toNat),
    pack (.str "ts_sec"), pack (.integer v.ts_sec.toNat),
    pack (.str "ts_nsec"), pack (.integer v.ts_nsec.toNat),
    pack (.str "len"), pack (.integer v.len.toNat),
    pack (.str "payload"), packExt v.payload.length 0x1b, packExtBody v.payload,
    pack (.str "stream"), pack (.str v.stream),
    pack (.str "layers"), packExt str.length 0x2f, packExtBody str]

end Pack

/-! ### Reading -/

section Convert

variable [Platform] (text : List UInt8 → String)

/-- The entries of a map, one after the other; `text` makes a string of the bytes of a `bin`. -/
def readEntries (m : List (String × Object)) :
    List (Object × Object) → Option (List (String × Object))
  | [] => some m
  | (k, o) :: kvs => do
    let key ← k.asKey text
    readEntries (Keyed.set m key o) kvs

/-- `as<std::unordered_map<std::string, msgpack::object>>` -/
def asMap : Object → Option (List (String × Object))
  | .map kvs => readEntries text [] kvs
  | _ => none

/-- The member under a key; one that is not there keeps its default. -/
def member {α : Type} (m : List (String × Object)) (key : String) (default : α)
    (as : Object → Option α) : Option α :=
  match m.lookup key with
  | some o => as o
  | none => some default

/-- `as<uint64_t>` -/
def asUInt64 : Object → Option UInt64
  | .integer n => if 0 ≤ n ∧ n < 2 ^ 64 then some (.ofNat n.toNat) else none
  | _ => none

/-- `as<uint32_t>` -/
def asUInt32 : Object → Option UInt32
  | .integer n => if 0 ≤ n ∧ n < 2 ^ 32 then some (.ofNat n.toNat) else none
  | _ => none

/-- `convert<PacketStreamPtr>` -/
def convertStream (o : Object) : Option PacketStream := do
  let map ← asMap text o
  let name ← member map "name" "" (Object.asKey text)
  let ns ← member map "namespace" "" (Object.asKey text)
  let id ← member map "id" "" (Object.asKey text)
  let data ← member map "data" .nil some
  let flag ← member map "flag" .noop asFlag
  some { name, ns, id, data, flag }

/-- `as<PacketStreamList>` -/
def convertStreams : Object → Option (List PacketStream)
  | .array os => os.mapM (convertStream text)
  | _ => none

/-- The keys of the fixed members are erased. -/
def eraseFixed (ext : List (String × Object)) : List (String × Object) :=
  ["namespace", "name", "payload", "layers", "streams"].foldl
    (fun ext key => ext.filter fun p => p.1 ≠ key) ext

mutual

/-- `convert<LayerPtr>` -/
def convertLayer : Object → Option RawLayer
  | .map kvs => do
    let ext ← readEntries text [] kvs
    let ns ← member ext "namespace" "" (Object.asKey text)
    let name ← member ext "name" "" (Object.asKey text)
    let payload ← member ext "payload" .nil some
    let layers ← (lastLayers none kvs).getD (some [])
    let streams ← member ext "streams" [] (convertStreams text)
    some (.mk ns name payload (eraseFixed ext) layers streams)
  | _ => none

/-- What becomes of the last entry with the key `layers`, if there is one. -/
def lastLayers (found : Option (Option RawLayerList)) :
    List (Object × Object) → Option (Option RawLayerList)
  | [] => found
  | (k, o) :: kvs =>
    lastLayers (if k.asKey text = some "layers" then some (convertLayers o) else found) kvs

/-- `as<LayerList>` -/
def convertLayers : Object → Option RawLayerList
  | .map kvs => convertEntries [] kvs
  | _ => none

def convertEntries (m : RawLayerList) : List (Object × Object) → Option RawLayerList
  | [] => some m
  | (k, o) :: kvs => do
    let key ← k.asKey text
    let layer ← convertLayer o
    convertEntries (Keyed.set m key layer) kvs

end

/-- `as<msgpack::type::ext>`, the bytes of it. -/
def asExt (bytes : Object → List UInt8) : Object → Option (List UInt8)
  | .ext _ data => some data
  | .extPacked _ o => some (bytes o)
  | _ => none

/-- The payload of a packet. -/
def asPayload (bytes : Object → List UInt8) : Object → Option (List UInt8)
  | .bin data => some data
  | o => asExt bytes o

/-- The layers of a packet, from the bytes of an extension. -/
def asLayers (decode : List UInt8 → Option Object) (bytes : Object → List UInt8) (o : Object) :
    Option RawLayerList := do
  let data ← asExt bytes o
  let layers ← decode data
  convertLayers text layers

/-- `convert<PacketPtr>`; `decode` reads an object from its bytes, `bytes` are the bytes of an
object that an extension is made of. -/
def convertPacket (decode : List UInt8 → Option Object) (bytes : Object → List UInt8) (o : Object) :
    Option RawPacket := do
  let map ← asMap text o
  let id ← member map "id" 0 asUInt64
  let ts_sec ← member map "ts_sec" 0 asUInt64
  let ts_nsec ← member map "ts_nsec" 0 asUInt32
  let len ← member map "len" 0 asUInt32
  let payload ← member map "payload" [] (asPayload bytes)
  let stream ← member map "stream" "" (Object.asKey text)
  let layers ← member map "layers" [] (asLayers text decode bytes)
  some { id, ts_sec, ts_nsec, len, payload, stream, layers }

end Convert

/-! ### What is written is read as maps -/

section Reads

open Token

/-- The map with these entries. -/
def entryMap (entries : List (String × Object)) : List (Object × Object) :=
  entries.map fun p => (.str p.1, p.2)

lemma readsMap_entry {ts ts' : List Token} {kvs : List (Object × Object)} (key : String) {o : Object}
    (h : Reads ts o) (hs : ReadsMap ts' kvs) :
    ReadsMap (pack (.str key) :: (ts ++ ts')) ((.str key, o) :: kvs) :=
  ReadsMap.cons (reads_pack _) h hs

variable [Platform]

/-- The members of a stream. -/
def streamMembers (v : PacketStream) : List (String × Object) :=
  [("name", .str v.name), ("namespace", .str v.ns), ("id", .str v.id), ("data", v.data),
    ("flag", .integer (flagNumber v.flag))]

lemma reads_packStream (v : PacketStream) :
    Reads (packStream v) (.map (entryMap (streamMembers v))) := by
  have hflag := readsMap_entry "flag" (reads_pack (.integer (flagNumber v.flag))) readsMap_nil
  have hdata := readsMap_entry "data" (reads_pack v.data) hflag
  have hid := readsMap_entry "id" (reads_pack (.str v.id)) hdata
  have hns := readsMap_entry "namespace" (reads_pack (.str v.ns)) hid
  exact (readsMap_entry "name" (reads_pack (.str v.name)) hns).reads

def streamObjects (v : List PacketStream) : List Object :=
  v.map fun st => .map (entryMap (streamMembers st))

lemma reads_packStreams (v : List PacketStream) : Reads (packStreams v) (.array (streamObjects v)) := by
  have hread : ReadsArray (v.flatMap packStream) (streamObjects v) := by
    induction v with
    | nil => exact readsArray_nil
    | cons st v ih => exact ReadsArray.cons (reads_packStream st) ih
  have hlength : (streamObjects v).length = v.length := List.length_map _
  rw [packStreams, ← hlength]
  exact hread.reads

/-- The fixed members of a layer. -/
def fixedMembers (ns name : String) (payload : Object) (layers : List (Object × Object))
    (streams : List PacketStream) : List (String × Object) :=
  [("namespace", .str ns), ("name", .str name), ("payload", payload), ("layers", .map layers),
    ("streams", .array (streamObjects streams))]

mutual

/-- The map that a layer is read as. -/
def layerObject : RawLayer → Object
  | .mk ns name payload ext layers streams =>
    .map (entryMap (ext ++ fixedMembers ns name payload (layerObjects layers) streams))

def layerObjects : RawLayerList → List (Object × Object)
  | [] => []
  | (key, layer) :: layers => (.str key, layerObject layer) :: layerObjects layers

end

lemma length_layerObjects (layers : RawLayerList) : (layerObjects layers).length = layers.length := by
  induction layers with
  | nil => rfl
  | cons p layers ih => rw [layerObjects, List.length_cons, List.length_cons, ih]

mutual

/-- The size in the header is the number of entries that are written. -/
lemma reads_packLayer : ∀ l : RawLayer, Reads (packLayer l) (layerObject l)
  | .mk ns name payload ext layers streams => by
    have hext : ReadsMap (ext.flatMap fun p => [pack (.str p.1), pack p.2]) (entryMap ext) := by
      induction ext with
      | nil => exact readsMap_nil
      | cons p ext ih => exact readsMap_entry p.1 (reads_pack p.2) ih
    have hlayers : Reads (packMap layers.length :: packEntries layers) (.map (layerObjects layers)) := by
      rw [← length_layerObjects]
      exact (readsMap_packEntries layers).reads
    have hstreams := readsMap_entry "streams" (reads_packStreams streams) readsMap_nil
    have hlayers' := readsMap_entry "layers" hlayers hstreams
    have hpayload := readsMap_entry "payload" (reads_pack payload) hlayers'
    have hname := readsMap_entry "name" (reads_pack (.str name)) hpayload
    have hfixed := readsMap_entry "namespace" (reads_pack (.str ns)) hname
    have hread := (hext.append hfixed).reads
    have hsize : (entryMap ext).length = ext.length := List.length_map _
    rw [List.length_append, hsize, Nat.add_comm] at hread
    have hread' : Reads (packMap (5 + ext.length) :: _) _ := hread
    simpa only [packLayer, layerObject, entryMap, fixedMembers, List.map_append, List.map_cons,
      List.map_nil, List.append_assoc, List.cons_append, List.nil_append, List.append_nil] using hread'

lemma readsMap_packEntries : ∀ layers : RawLayerList,
    ReadsMap (packEntries layers) (layerObjects layers)
  | [] => readsMap_nil
  | (key, layer) :: layers =>
    readsMap_entry key (reads_packLayer layer) (readsMap_packEntries layers)

end

lemma reads_packLayers (layers : RawLayerList) :
    Reads (packLayers layers) (.map (layerObjects layers)) := by
  rw [packLayers, ← length_layerObjects]
  exact (readsMap_packEntries layers).reads

/-- The members of a packet. -/
def packetMembers (encode : List Token → List UInt8) (v : RawPacket) : List (String × Object) :=
  [("id", .integer v.id.toNat), ("ts_sec", .integer v.ts_sec.toNat),
    ("ts_nsec", .integer v.ts_nsec.toNat), ("len", .integer v.len.toNat),
    ("payload", .ext 0x1b v.payload), ("stream", .str v.stream),
    ("layers", .ext 0x2f (encode (packLayers v.layers)))]

lemma reads_packPacket (encode : List Token → List UInt8) (v : RawPacket) :
    Reads (packPacket encode v) (.map (entryMap (packetMembers encode v))) := by
  have hlayers := readsMap_entry "layers" (reads_packExt 0x2f (encode (packLayers v.layers)))
    readsMap_nil
  have hstream := readsMap_entry "stream" (reads_pack (.str v.stream)) hlayers
  have hpayload := readsMap_entry "payload" (reads_packExt 0x1b v.payload) hstream
  have hlen := readsMap_entry "len" (reads_pack (.integer v.len.toNat)) hpayload
  have hnsec := readsMap_entry "ts_nsec" (reads_pack (.integer v.ts_nsec.toNat)) hlen
  have hsec := readsMap_entry "ts_sec" (reads_pack (.integer v.ts_sec.toNat)) hnsec
  exact (readsMap_entry "id" (reads_pack (.integer v.id.toNat)) hsec).reads

end Reads

/-! ### The round trip -/

section RoundTrip

variable (text : List UInt8 → String)

lemma readEntries_entryMap {m entries : List (String × Object)}
    (h : (m.map Prod.fst ++ entries.map Prod.fst).Nodup) :
    readEntries text m (entryMap entries) = some (m ++ entries) := by
  induction entries generalizing m with
  | nil => rw [List.append_nil]; rfl
  | cons p entries ih =>
    have hnew : p.1 ∉ m.map Prod.fst := by
      intro hmem
      exact (List.nodup_append.mp h).2.2 p.1 hmem p.1 (by simp) rfl
    have hnext : readEntries text (m ++ [p]) (entryMap entries) = some (m ++ [p] ++ entries) :=
      ih (by simpa using h)
    show readEntries text (Keyed.set m p.1 p.2) (entryMap entries) = _
    rw [Keyed.set_new hnew, hnext, List.append_assoc, List.singleton_append]

lemma asMap_entryMap {entries : List (String × Object)} (h : (entries.map Prod.fst).Nodup) :
    asMap text (.map (entryMap entries)) = some entries :=
  readEntries_entryMap text (m := []) h

lemma eraseFixed_eq (m : List (String × Object)) :
    eraseFixed m = m.filter fun p => p.1 ∉ reserved := by
  simp only [eraseFixed, List.foldl_cons, List.foldl_nil, List.filter_filter]
  apply List.filter_congr
  intro p _
  rw [Bool.eq_iff_iff]
  simp only [Bool.and_eq_true, decide_eq_true_eq, reserved, List.mem_cons, List.not_mem_nil, or_false]
  tauto

lemma asUInt64_toNat (n : UInt64) : asUInt64 (.integer n.toNat) = some n := by
  have hlt : n.toNat < 2 ^ 64 := n.toNat_lt
  have hbound : (0 : ℤ) ≤ n.toNat ∧ (n.toNat : ℤ) < 2 ^ 64 :=
    ⟨Int.natCast_nonneg _, by exact_mod_cast hlt⟩
  rw [asUInt64, if_pos hbound, Int.toNat_natCast, UInt64.ofNat_toNat]

lemma asUInt32_toNat (n : UInt32) : asUInt32 (.integer n.toNat) = some n := by
  have hlt : n.toNat < 2 ^ 32 := n.toNat_lt
  have hbound : (0 : ℤ) ≤ n.toNat ∧ (n.toNat : ℤ) < 2 ^ 32 :=
    ⟨Int.natCast_nonneg _, by exact_mod_cast hlt⟩
  rw [asUInt32, if_pos hbound, Int.toNat_natCast, UInt32.ofNat_toNat]

variable [Platform]

lemma convertStream_members (v : PacketStream) :
    convertStream text (.map (entryMap (streamMembers v))) = some v := by
  have hnodup : ((streamMembers v).map Prod.fst).Nodup := by
    show ["name", "namespace", "id", "data", "flag"].Nodup
    decide
  rw [convertStream, asMap_entryMap text hnodup]
  simp [member, streamMembers, List.lookup_cons, Object.asKey, asFlag_flagNumber]

lemma convertStreams_objects (v : List PacketStream) :
    convertStreams text (.array (streamObjects v)) = some v := by
  show (streamObjects v).mapM (convertStream text) = some v
  induction v with
  | nil => rfl
  | cons st v ih =>
    rw [streamObjects, List.map_cons, List.mapM_cons, convertStream_members]
    rw [streamObjects] at ih
    rw [ih]
    rfl

variable {ext : List (String × Object)} {ns name : String} {payload : Object}
  {layers : List (Object × Object)} {streams : List PacketStream}

lemma keys_fixedMembers :
    (fixedMembers ns name payload layers streams).map Prod.fst =
      ["namespace", "name", "payload", "layers", "streams"] := rfl

lemma Unreserved.nodup_members (h : Unreserved ext) :
    ((ext ++ fixedMembers ns name payload layers streams).map Prod.fst).Nodup := by
  rw [List.map_append, keys_fixedMembers, List.nodup_append]
  refine ⟨h.nodup, by decide, ?_⟩
  rintro k hk k' hk' rfl
  apply h.unreserved k hk
  revert hk'
  simp only [reserved, List.mem_cons]
  tauto

/-- A fixed member is found although the entries of `ext` come before it. -/
lemma member_members {α : Type} (h : Unreserved ext) {key : String} (hkey : key ∈ reserved)
    (default : α) (as : Object → Option α) :
    member (ext ++ fixedMembers ns name payload layers streams) key default as =
      member (fixedMembers ns name payload layers streams) key default as := by
  have hnone : ext.lookup key = none := by
    apply List.lookup_eq_none_iff.mpr
    intro p hp
    have hne : key ≠ p.1 := by
      rintro rfl
      exact h.unreserved p.1 (List.mem_map_of_mem hp) hkey
    simpa using hne
  rw [member, List.lookup_append, hnone, Option.none_or]
  rfl

lemma eraseFixed_members (h : Unreserved ext) :
    eraseFixed (ext ++ fixedMembers ns name payload layers streams) = ext := by
  have hext : ext.filter (fun p => p.1 ∉ reserved) = ext := by
    apply List.filter_eq_self.mpr
    intro p hp
    exact decide_eq_true (h.unreserved p.1 (List.mem_map_of_mem hp))
  have hfixed : (fixedMembers ns name payload layers streams).filter (fun p => p.1 ∉ reserved) =
      [] := rfl
  rw [eraseFixed_eq, List.filter_append, hext, hfixed, List.append_nil]

lemma lastLayers_members (h : Unreserved ext) :
    lastLayers text none (entryMap (ext ++ fixedMembers ns name payload layers streams)) =
      some (convertLayers text (.map layers)) := by
  have hskip : ∀ kvs, lastLayers text none (entryMap ext ++ kvs) = lastLayers text none kvs := by
    intro kvs
    have hkeys : "layers" ∉ ext.map Prod.fst := fun hmem => h.unreserved _ hmem (by decide)
    clear h
    induction ext with
    | nil => rfl
    | cons p ext ih =>
      rw [List.map_cons, List.mem_cons, not_or] at hkeys
      have hne : ¬ some p.1 = some "layers" := fun heq => hkeys.1 (Option.some.inj heq).symm
      show lastLayers text (if some p.1 = some "layers" then _ else none) _ = _
      rw [if_neg hne]
      exact ih hkeys.2
  rw [entryMap, List.map_append]
  exact (hskip _).trans rfl

/-- The members of a layer are read from its map. -/
lemma convertLayer_members (h : Unreserved ext) {layers' : RawLayerList}
    (hlayers : convertLayers text (.map layers) = some layers') :
    convertLayer text (.map (entryMap (ext ++ fixedMembers ns name payload layers streams))) =
      some (.mk ns name payload ext layers' streams) := by
  have hread : readEntries text [] (entryMap (ext ++ fixedMembers ns name payload layers streams)) =
      some (ext ++ fixedMembers ns name payload layers streams) :=
    asMap_entryMap text h.nodup_members
  have hns : member (fixedMembers ns name payload layers streams) "namespace" ""
      (Object.asKey text) = some ns := rfl
  have hname : member (fixedMembers ns name payload layers streams) "name" ""
      (Object.asKey text) = some name := rfl
  have hpayload : member (fixedMembers ns name payload layers streams) "payload" .nil some =
      some payload := rfl
  have hstreams : member (fixedMembers ns name payload layers streams) "streams" []
      (convertStreams text) = some streams := convertStreams_objects text streams
  rw [convertLayer, hread]
  simp only [member_members h (by decide : "namespace" ∈ reserved),
    member_members h (by decide : "name" ∈ reserved),
    member_members h (by decide : "payload" ∈ reserved),
    member_members h (by decide : "streams" ∈ reserved), hns, hname, hpayload, hstreams,
    lastLayers_members text h, hlayers, eraseFixed_members h, Option.bind_eq_bind, Option.bind_some,
    Option.getD_some]

lemma convertEntries_objects {m layers : RawLayerList}
    (h : ∀ p ∈ layers, convertLayer text (layerObject p.2) = some p.2)
    (hnodup : (m.map Prod.fst ++ layers.map Prod.fst).Nodup) :
    convertEntries text m (layerObjects layers) = some (m ++ layers) := by
  induction layers generalizing m with
  | nil => rw [List.append_nil]; rfl
  | cons p layers ih =>
    obtain ⟨key, layer⟩ := p
    have hnew : key ∉ m.map Prod.fst := by
      intro hmem
      exact (List.nodup_append.mp hnodup).2.2 key hmem key (by simp) rfl
    have hnext : convertEntries text (m ++ [(key, layer)]) (layerObjects layers) =
        some (m ++ [(key, layer)] ++ layers) :=
      ih (fun q hq => h q (List.mem_cons_of_mem _ hq)) (by simpa using hnodup)
    have hlayer : convertLayer text (layerObject layer) = some layer := h (key, layer) List.mem_cons_self
    rw [layerObjects, convertEntries]
    simp only [Object.asKey, hlayer, Keyed.set_new hnew, hnext, Option.bind_eq_bind, Option.bind_some,
      List.append_assoc, List.singleton_append]

lemma convertLayers_objects {layers : RawLayerList}
    (h : ∀ p ∈ layers, convertLayer text (layerObject p.2) = some p.2)
    (hnodup : (layers.map Prod.fst).Nodup) :
    convertLayers text (.map (layerObjects layers)) = some layers :=
  convertEntries_objects text (m := []) h hnodup

/-- A layer is converted back to itself. -/
lemma convertLayer_object {l : RawLayer} (h : l.Keyed) : convertLayer text (layerObject l) = some l := by
  induction h with
  | mk hext hnodup _ ih =>
    rw [layerObject]
    exact convertLayer_members text hext (convertLayers_objects text ih hnodup)

lemma convertPacket_of_members {members : List (String × Object)} {pkt : RawPacket} {o : Object}
    {decode : List UInt8 → Option Object} {bytes : Object → List UInt8}
    (hmap : asMap text o = some members) (hid : member members "id" 0 asUInt64 = some pkt.id)
    (hsec : member members "ts_sec" 0 asUInt64 = some pkt.ts_sec)
    (hnsec : member members "ts_nsec" 0 asUInt32 = some pkt.ts_nsec)
    (hlen : member members "len" 0 asUInt32 = some pkt.len)
    (hpayload : member members "payload" [] (asPayload bytes) = some pkt.payload)
    (hstream : member members "stream" "" (Object.asKey text) = some pkt.stream)
    (hlayers : member members "layers" [] (asLayers text decode bytes) = some pkt.layers) :
    convertPacket text decode bytes o = some pkt := by
  simp only [convertPacket, hmap, hid, hsec, hnsec, hlen, hpayload, hstream, hlayers,
    Option.bind_eq_bind, Option.bind_some]

/-- A packet is read and converted back to itself, if its layers are decoded as they have been
written. -/
lemma convertPacket_packPacket {pkt : RawPacket} (h : KeyedList pkt.layers) {encode : List Token → List UInt8}
    {decode : List UInt8 → Option Object}
    (hcodec : decode (encode (packLayers pkt.layers)) = Token.unpack (packLayers pkt.layers))
    (bytes : Object → List UInt8) :
    (Token.unpack (packPacket encode pkt)).bind (convertPacket text decode bytes) = some pkt := by
  have hnodup : ((packetMembers encode pkt).map Prod.fst).Nodup := by
    show ["id", "ts_sec", "ts_nsec", "len", "payload", "stream", "layers"].Nodup
    decide
  have hlayers : convertLayers text (.map (layerObjects pkt.layers)) = some pkt.layers :=
    convertLayers_objects text (fun p hp => convertLayer_object text (h.layers p hp)) h.nodup
  rw [(reads_packLayers pkt.layers).unpack] at hcodec
  rw [(reads_packPacket encode pkt).unpack, Option.bind_some]
  have hid : member (packetMembers encode pkt) "id" 0 asUInt64 = some pkt.id :=
    asUInt64_toNat pkt.id
  have hsec : member (packetMembers encode pkt) "ts_sec" 0 asUInt64 = some pkt.ts_sec :=
    asUInt64_toNat pkt.ts_sec
  have hnsec : member (packetMembers encode pkt) "ts_nsec" 0 asUInt32 = some pkt.ts_nsec :=
    asUInt32_toNat pkt.ts_nsec
  have hlen : member (packetMembers encode pkt) "len" 0 asUInt32 = some pkt.len :=
    asUInt32_toNat pkt.len
  have hpayload : member (packetMembers encode pkt) "payload" [] (asPayload bytes) =
    some pkt.payload := rfl
  have hstream : member (packetMembers encode pkt) "stream" "" (Object.asKey text) =
    some pkt.stream := rfl
  have hmember : member (packetMembers encode pkt) "layers" [] (asLayers text decode bytes) =
      some pkt.layers := by
    show asLayers text decode bytes (.ext 0x2f (encode (packLayers pkt.layers))) = some pkt.layers
    simp only [asLayers, asExt, hcodec, hlayers, Option.bind_eq_bind, Option.bind_some]
  exact convertPacket_of_members text (asMap_entryMap text hnodup) hid hsec hnsec hlen hpayload
    hstream hmember

end RoundTrip

/-! ### Two platforms -/

section Compatible

variable {α β : Type}

/-- If there is a value in both, it is the same. -/
def Compatible (x y : Option α) : Prop := ∀ a b, x = some a → y = some b → a = b

lemma compatible_refl (x : Option α) : Compatible x x := by
  intro a b ha hb
  exact Option.some.inj (ha.symm.trans hb)

lemma Compatible.bind {x y : Option α} {f g : α → Option β} (h : Compatible x y)
    (hf : ∀ a, Compatible (f a) (g a)) : Compatible (x >>= f) (y >>= g) := by
  intro c d hc hd
  obtain ⟨a, ha, hc⟩ := Option.bind_eq_some_iff.mp hc
  obtain ⟨b, hb, hd⟩ := Option.bind_eq_some_iff.mp hd
  obtain rfl := h a b ha hb
  exact hf a c d hc hd

lemma compatible_mapM {f g : α → Option β} (h : ∀ a, Compatible (f a) (g a)) (as : List α) :
    Compatible (as.mapM f) (as.mapM g) := by
  induction as with
  | nil => exact compatible_refl _
  | cons a as ih =>
    rw [List.mapM_cons, List.mapM_cons]
    exact (h a).bind fun b => ih.bind fun bs => compatible_refl _

lemma compatible_member {as as' : Object → Option α} (h : ∀ o, Compatible (as o) (as' o))
    (m : List (String × Object)) (key : String) (default : α) :
    Compatible (member m key default as) (member m key default as') := by
  unfold member
  cases m.lookup key with
  | none => exact compatible_refl _
  | some o => exact h o

variable (p q : Platform) (text : List UInt8 → String)

/-- A number that both platforms take has the same bits on both. -/
lemma compatible_asFlag (o : Object) : Compatible (@asFlag p o) (@asFlag q o) := by
  intro a b ha hb
  cases o with
  | integer n =>
    simp only [asFlag] at ha hb
    split_ifs at ha hb
    exact Option.some.inj (ha.symm.trans hb)
  | _ => cases ha

lemma compatible_convertStream (o : Object) :
    Compatible (@convertStream p text o) (@convertStream q text o) := by
  refine (compatible_refl _).bind fun map => (compatible_refl _).bind fun name =>
    (compatible_refl _).bind fun ns => (compatible_refl _).bind fun id =>
    (compatible_refl _).bind fun data => ?_
  exact (compatible_member (compatible_asFlag p q) map "flag" .noop).bind fun flag =>
    compatible_refl _

lemma compatible_convertStreams (o : Object) :
    Compatible (@convertStreams p text o) (@convertStreams q text o) := by
  cases o with
  | array os => exact compatible_mapM (compatible_convertStream p q text) os
  | _ => exact compatible_refl none

mutual

lemma compatible_convertLayer : ∀ o : Object,
    Compatible (@convertLayer p text o) (@convertLayer q text o)
  | .map kvs => by
    simp only [convertLayer]
    refine (compatible_refl _).bind fun ext => (compatible_refl _).bind fun ns =>
      (compatible_refl _).bind fun name => (compatible_refl _).bind fun payload => ?_
    have hlayers := compatible_lastLayers kvs none none (compatible_refl _)
    exact hlayers.bind fun layers =>
      (compatible_member (compatible_convertStreams p q text) ext "streams" []).bind fun streams =>
        compatible_refl _
  | .nil | .boolean _ | .integer _ | .float _ | .str _ | .bin _ | .array _ | .ext _ _
  | .extPacked _ _ => compatible_refl none

lemma compatible_lastLayers : ∀ (kvs : List (Object × Object))
    (found found' : Option (Option RawLayerList)),
    Compatible (found.getD (some [])) (found'.getD (some [])) →
    Compatible ((@lastLayers p text found kvs).getD (some []))
      ((@lastLayers q text found' kvs).getD (some []))
  | [], found, found', h => h
  | (k, o) :: kvs, found, found', h => by
    apply compatible_lastLayers kvs
    split_ifs with hkey
    · exact compatible_convertLayers o
    · exact h

lemma compatible_convertLayers : ∀ o : Object,
    Compatible (@convertLayers p text o) (@convertLayers q text o)
  | .map kvs => compatible_convertEntries kvs []
  | .nil | .boolean _ | .integer _ | .float _ | .str _ | .bin _ | .array _ | .ext _ _
  | .extPacked _ _ => compatible_refl none

lemma compatible_convertEntries : ∀ (kvs : List (Object × Object)) (m : RawLayerList),
    Compatible (@convertEntries p text m kvs) (@convertEntries q text m kvs)
  | [], m => compatible_refl _
  | (k, o) :: kvs, m => by
    simp only [convertEntries]
    exact (compatible_refl _).bind fun key => (compatible_convertLayer o).bind fun layer =>
      compatible_convertEntries kvs _

end

end Compatible

/-! ### The functions that build layers -/

section Build

/-- The object of a layer: what the layer has before the call, the own properties of the object,
and the objects in its property `layers`. -/
inductive RawObject where
  | mk (ns name : String) (ext : List (String × Object)) (props : List (String × Property))
      (layers : List (String × RawObject)) (streams : List StreamElement) : RawObject

/-- The loop over the own properties of `LayerWrapper::syncFromScript`, with what it reads. -/
def readExt (ext : List (String × Object)) : List (String × Property) → Option (List (String × Object))
  | [] => some ext
  | (name, p) :: props =>
    if name ∈ reserved then readExt ext props
    else do
      let o ← v8ToMsgpack p.value
      readExt (Keyed.set ext name o) props

mutual

/-- `LayerWrapper::syncFromScript`, with the layer it leaves. -/
def syncFromScript : RawObject → Option RawLayer
  | .mk ns name ext props layers streams => do
    let layers' ← syncChildrenFromScript layers
    let payload ← LayerWrapper.readPayload props
    let ext' ← readExt ext (texts props)
    let streams' ← LayerWrapper.readStreams streams
    some (.mk ns name payload ext' (byText layers') streams')

/-- The layers of the objects that are the own properties of `layers`. -/
def syncChildrenFromScript : List (String × RawObject) → Option RawLayerList
  | [] => some []
  | (key, obj) :: objs => do
    let layer ← syncFromScript obj
    let layers ← syncChildrenFromScript objs
    some ((key, layer) :: layers)

end

/-- The layer that the constructor `StreamLayer` makes. -/
def streamLayer (name ns : String) (attrs : Object) : RawLayer :=
  .mk ns name .nil [("attrs", attrs)] [] []

/-- The layer that `Dispatcher::insert` makes. -/
def insertedLayer (size : ℕ) : RawLayer :=
  .mk (rawLayer size).ns (rawLayer size).name (rawLayer size).payload (rawLayer size).ext.entries [] []

/-- The layers of an object fulfil the key condition. -/
inductive RawObject.Keyed : RawObject → Prop
  | mk {ns name : String} {ext : List (String × Object)} {props : List (String × Property)}
      {layers : List (String × RawObject)} {streams : List StreamElement} (hext : Unreserved ext)
      (hlayers : ∀ p ∈ layers, p.2.Keyed) : RawObject.Keyed (.mk ns name ext props layers streams)

/-! #### Keys of maps -/

lemma nodup_readEntries {text : List UInt8 → String} {m m' : List (String × Object)}
    {kvs : List (Object × Object)} (h : (m.map Prod.fst).Nodup)
    (hread : readEntries text m kvs = some m') : (m'.map Prod.fst).Nodup := by
  induction kvs generalizing m with
  | nil =>
    obtain rfl := Option.some.inj hread
    exact h
  | cons kv kvs ih =>
    obtain ⟨key, -, hread⟩ := Option.bind_eq_some_iff.mp hread
    exact ih (Keyed.distinct_set h key kv.2) hread

lemma KeyedList.set {layers : RawLayerList} (h : KeyedList layers) (key : String) {l : RawLayer}
    (hl : l.Keyed) : KeyedList (Keyed.set layers key l) := by
  refine ⟨Keyed.distinct_set h.nodup key l, ?_⟩
  intro p hp
  rcases Keyed.mem_set hp with hp | rfl
  · exact h.layers p hp
  · exact hl

lemma keyedList_nil : KeyedList [] := ⟨List.nodup_nil, fun p hp => by cases hp⟩

/-! #### `convert<LayerPtr>` -/

lemma unreserved_eraseFixed {m : List (String × Object)} (h : (m.map Prod.fst).Nodup) :
    Unreserved (eraseFixed m) := by
  rw [eraseFixed_eq]
  refine ⟨h.sublist (List.filter_sublist.map Prod.fst), ?_⟩
  intro k hk
  obtain ⟨p, hp, rfl⟩ := List.mem_map.mp hk
  exact of_decide_eq_true (List.mem_filter.mp hp).2

section Converted

variable [Platform] (text : List UInt8 → String)

mutual

/-- Whatever a layer is converted from, its `ext` has no reserved keys. -/
lemma convertLayer_keyed : ∀ (o : Object) (l : RawLayer), convertLayer text o = some l → l.Keyed
  | .map kvs, l, h => by
    rw [convertLayer] at h
    obtain ⟨ext, hext, h⟩ := Option.bind_eq_some_iff.mp h
    obtain ⟨ns, -, h⟩ := Option.bind_eq_some_iff.mp h
    obtain ⟨name, -, h⟩ := Option.bind_eq_some_iff.mp h
    obtain ⟨payload, -, h⟩ := Option.bind_eq_some_iff.mp h
    obtain ⟨layers, hlayers, h⟩ := Option.bind_eq_some_iff.mp h
    obtain ⟨streams, -, h⟩ := Option.bind_eq_some_iff.mp h
    obtain rfl := Option.some.inj h
    have hkeyed : KeyedList layers := by
      cases hlast : lastLayers text none kvs with
      | none =>
        rw [hlast] at hlayers
        obtain rfl := Option.some.inj hlayers
        exact keyedList_nil
      | some found =>
        rw [hlast] at hlayers
        obtain rfl : found = some layers := hlayers
        exact lastLayers_keyed kvs none (fun ls hls => by cases hls) layers hlast
    have hnil : (([] : List (String × Object)).map Prod.fst).Nodup := List.nodup_nil
    exact .mk (unreserved_eraseFixed (nodup_readEntries hnil hext)) hkeyed.nodup hkeyed.layers
  | .nil, l, h | .boolean _, l, h | .integer _, l, h | .float _, l, h | .str _, l, h
  | .bin _, l, h | .array _, l, h | .ext _ _, l, h | .extPacked _ _, l, h => by
    cases h

lemma lastLayers_keyed : ∀ (kvs : List (Object × Object)) (found : Option (Option RawLayerList)),
    (∀ layers, found = some (some layers) → KeyedList layers) →
    ∀ layers, lastLayers text found kvs = some (some layers) → KeyedList layers
  | [], found, hfound, layers, h => hfound layers h
  | (k, o) :: kvs, found, hfound, layers, h => by
    refine lastLayers_keyed kvs _ ?_ layers h
    intro layers' hlayers'
    split_ifs at hlayers' with hkey
    · exact convertLayers_keyed o layers' (Option.some.inj hlayers')
    · exact hfound layers' hlayers'

lemma convertLayers_keyed : ∀ (o : Object) (layers : RawLayerList),
    convertLayers text o = some layers → KeyedList layers
  | .map kvs, layers, h => convertEntries_keyed kvs [] keyedList_nil layers h
  | .nil, l, h | .boolean _, l, h | .integer _, l, h | .float _, l, h | .str _, l, h
  | .bin _, l, h | .array _, l, h | .ext _ _, l, h | .extPacked _ _, l, h => by
    cases h

lemma convertEntries_keyed : ∀ (kvs : List (Object × Object)) (m : RawLayerList), KeyedList m →
    ∀ layers, convertEntries text m kvs = some layers → KeyedList layers
  | [], m, hm, layers, h => by
    obtain rfl := Option.some.inj h
    exact hm
  | (k, o) :: kvs, m, hm, layers, h => by
    rw [convertEntries] at h
    obtain ⟨key, -, h⟩ := Option.bind_eq_some_iff.mp h
    obtain ⟨layer, hlayer, h⟩ := Option.bind_eq_some_iff.mp h
    exact convertEntries_keyed kvs _ (hm.set key (convertLayer_keyed o layer hlayer)) layers h

end

end Converted

/-! #### `syncFromScript` -/

lemma Unreserved.set {ext : List (String × Object)} (h : Unreserved ext) {name : String}
    (hname : name ∉ reserved) (o : Object) : Unreserved (Keyed.set ext name o) := by
  refine ⟨Keyed.distinct_set h.nodup name o, ?_⟩
  intro k hk
  rcases (Keyed.mem_keys_set ext name o k).mp hk with hk | rfl
  · exact h.unreserved k hk
  · exact hname

/-- Reserved properties are skipped. -/
lemma Unreserved.readExt {ext ext' : List (String × Object)} (h : Unreserved ext)
    {props : List (String × Property)} (hread : readExt ext props = some ext') : Unreserved ext' := by
  induction props generalizing ext with
  | nil =>
    obtain rfl := Option.some.inj hread
    exact h
  | cons p props ih =>
    rw [Packing.readExt] at hread
    split_ifs at hread with hname
    · exact ih h hread
    · obtain ⟨o, -, hread⟩ := Option.bind_eq_some_iff.mp hread
      exact ih (h.set hname o) hread

mutual

lemma syncFromScript_keyed : ∀ (obj : RawObject) (l : RawLayer), obj.Keyed →
    syncFromScript obj = some l → l.Keyed
  | .mk ns name ext props layers streams, l, .mk hext hlayers, h => by
    rw [syncFromScript] at h
    obtain ⟨layers', hlayers', h⟩ := Option.bind_eq_some_iff.mp h
    obtain ⟨payload, -, h⟩ := Option.bind_eq_some_iff.mp h
    obtain ⟨ext', hext', h⟩ := Option.bind_eq_some_iff.mp h
    obtain ⟨streams', -, h⟩ := Option.bind_eq_some_iff.mp h
    obtain rfl := Option.some.inj h
    refine .mk (hext.readExt hext') (distinct_byText layers') fun p hp => ?_
    obtain ⟨q, hq, rfl⟩ := exists_of_mem_byText hp
    exact syncChildrenFromScript_keyed layers hlayers layers' hlayers' q hq

lemma syncChildrenFromScript_keyed : ∀ (objs : List (String × RawObject)),
    (∀ p ∈ objs, p.2.Keyed) → ∀ layers, syncChildrenFromScript objs = some layers →
    ∀ p ∈ layers, p.2.Keyed
  | [], _, layers, h, p, hp => by
    obtain rfl := Option.some.inj h
    cases hp
  | (key, obj) :: objs, hobjs, layers, h, p, hp => by
    rw [syncChildrenFromScript] at h
    obtain ⟨layer, hlayer, h⟩ := Option.bind_eq_some_iff.mp h
    obtain ⟨layers', hlayers', h⟩ := Option.bind_eq_some_iff.mp h
    obtain rfl := Option.some.inj h
    rcases List.mem_cons.mp hp with rfl | hp
    · exact syncFromScript_keyed obj layer (hobjs _ List.mem_cons_self) hlayer
    · exact syncChildrenFromScript_keyed objs (fun q hq => hobjs q (List.mem_cons_of_mem _ hq))
        layers' hlayers' p hp

end

/-- With the key condition in the type of `ext`, the same is written. -/
lemma readExt_entries {ext ext' : ExtMap} {props : List (String × Property)}
    (h : LayerWrapper.readExt ext props = some ext') : readExt ext.entries props = some ext'.entries := by
  induction props generalizing ext with
  | nil =>
    obtain rfl := Option.some.inj h
    rfl
  | cons p props ih =>
    rw [LayerWrapper.readExt] at h
    rw [readExt]
    split_ifs at h ⊢ with hname
    · exact ih h
    · obtain ⟨o, ho, h⟩ := Option.bind_eq_some_iff.mp h
      refine Option.bind_eq_some_iff.mpr ⟨o, ho, ?_⟩
      rw [← ExtMap.set_entries hname]
      exact ih h

end Build

/-! ### Both parts -/

/-- A packet whose layers fulfil the key condition is the same after it has been packed, read and
converted, if msgpack-c decodes what has been written for its layers; and every function that builds
a layer builds one that fulfils the condition. -/
theorem packet_round_trip [Platform] :
    (∀ (text : List UInt8 → String) (encode : List Token → List UInt8)
      (decode : List UInt8 → Option Object) (bytes : Object → List UInt8) (pkt : RawPacket),
      KeyedList pkt.layers →
      decode (encode (packLayers pkt.layers)) = Token.unpack (packLayers pkt.layers) →
      (Token.unpack (packPacket encode pkt)).bind (convertPacket text decode bytes) = some pkt) ∧
    (∀ (text : List UInt8 → String) (o : Object) (l : RawLayer),
      convertLayer text o = some l → l.Keyed) ∧
    (∀ (obj : RawObject) (l : RawLayer), obj.Keyed → syncFromScript obj = some l → l.Keyed) ∧
    (∀ (name ns : String) (attrs : Object), (streamLayer name ns attrs).Keyed) ∧
    ∀ size : ℕ, (insertedLayer size).Keyed := by
  refine ⟨?_, convertLayer_keyed, syncFromScript_keyed, ?_, ?_⟩
  · intro text encode decode bytes pkt h hcodec
    exact convertPacket_packPacket text h hcodec bytes
  · intro name ns attrs
    refine .mk ⟨List.nodup_singleton _, ?_⟩ keyedList_nil.nodup keyedList_nil.layers
    intro k hk
    rw [List.mem_singleton.mp hk]
    show "attrs" ∉ reserved
    decide
  · intro size
    exact .mk ⟨ExtMap.empty.nodup, ExtMap.empty.unreserved⟩ keyedList_nil.nodup keyedList_nil.layers

/-- A packet with a layer that has one entry in its `ext`. -/
def smallPacket : RawPacket where
  id := 1
  payload := [1, 2]
  layers := [("E", .mk "N" "" .nil [("a", .nil)] [] [])]

/-- The bytes that are written for its layers. -/
def smallBytes : List UInt8 :=
  [0x81, 0xa1, 0x45, 0x86, 0xa1, 0x61, 0xc0, 0xa9, 0x6e, 0x61, 0x6d, 0x65, 0x73, 0x70, 0x61, 0x63, 0x65,
    0xa1, 0x4e, 0xa4, 0x6e, 0x61, 0x6d, 0x65, 0xa0, 0xa7, 0x70, 0x61, 0x79, 0x6c, 0x6f, 0x61, 0x64, 0xc0,
    0xa6, 0x6c, 0x61, 0x79, 0x65, 0x72, 0x73, 0x80, 0xa7, 0x73, 0x74, 0x72, 0x65, 0x61, 0x6d, 0x73, 0x90]

/-- The object that they are decoded as. -/
def smallObject : Object :=
  .map [(.str "E", .map [(.str "a", .nil), (.str "namespace", .str "N"), (.str "name", .str ""),
    (.str "payload", .nil), (.str "layers", .map []), (.str "streams", .array [])])]

theorem packet_round_trip_small :
    (Token.unpack (packPacket (fun _ => smallBytes) smallPacket)).bind
      (convertPacket (fun _ => "") (fun data => if data = smallBytes then some smallObject else none)
        fun _ => []) = some smallPacket := by
  have hlayers : KeyedList smallPacket.layers := by
    refine ⟨List.nodup_singleton _, ?_⟩
    intro p hp
    obtain rfl := List.mem_singleton.mp hp
    refine .mk ⟨List.nodup_singleton _, ?_⟩ keyedList_nil.nodup keyedList_nil.layers
    intro k hk
    rw [List.mem_singleton.mp hk]
    decide
  apply packet_round_trip.1 _ _ _ _ _ hlayers
  rw [if_pos rfl]
  rfl

end Packing

end Dripcap
