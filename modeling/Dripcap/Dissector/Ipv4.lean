import Dripcap.Dissector.Analysis

/-!
# The IPv4 dissector

`IPv4Dissector` of `ipv4.es`, and what it makes of a datagram.
-/

namespace Dripcap

open Outcome Dissect

namespace IPv4Dissector

/-! ### The header -/

/-- What the dissector has read before the payload. -/
structure Header where
  totalLength : ℕ
  protocol : Enum
  source : IPv4Address
  destination : IPv4Address

/-- From the version to the identification. -/
def readLengths (payload : Payload) : Dissect ℕ := do
  assertLength payload 1
  pushAttr "Version" "version" (payload.slice 0 1)
    ((fun byte => .number (byte >>> 4)) <$> readUInt8 payload 0)
  pushAttr "Internet Header Length" "headerLength" (payload.slice 0 1)
    ((fun byte => .number (byte &&& 0b00001111)) <$> readUInt8 payload 0)
  assertLength payload 2
  pushAttr "Type of service" "type" (payload.slice 1 2) (.number <$> readUInt8 payload 1)
  assertLength payload 4
  let totalLength ← readUInt16BE payload 2
  pushAttr "Total Length" "totalLength" (payload.slice 2 4) (pure (.number totalLength))
  assertLength payload 6
  pushAttr "Identification" "id" (payload.slice 4 6) (.number <$> readUInt16BE payload 4)
  pure totalLength

/-- A field of one of the flags. -/
def flagField (flags : Flags) (payload : Payload) (name : String) : Field :=
  { name := name, value := some (.boolean (flags.get name)), data := payload.slice 6 7 }

/-- The flags and the fragment offset. -/
def readFragment (payload : Payload) : Dissect PUnit := do
  assertLength payload 7
  let byte ← readUInt8 payload 6
  let flags := Flags.ofClass .field ((byte >>> 5) &&& 0x7 : ℕ)
  push { name := "Flags", attr := some "flags", data := payload.slice 6 7,
         fields := [flagField flags payload "Reserved", flagField flags payload "Don't Fragment",
                    flagField flags payload "More Fragments"] }
  setAttr "flags" (.instance (.flags flags))
  -- one byte is read of the two
  pushAttr "Fragment Offset" "fragmentOffset" (payload.slice 6 8)
    ((fun byte => .number (byte &&& 0b0001111111111111)) <$> readUInt8 payload 6)

/-- From the time to live to the checksum. -/
def readProtocol (payload : Payload) : Dissect Enum := do
  assertLength payload 9
  pushAttr "TTL" "ttl" (payload.slice 8 9) (.number <$> readUInt8 payload 8)
  assertLength payload 10
  let byte ← readUInt8 payload 9
  let protocol := Enum.ofClass .ipv4Protocol byte
  pushAttr "Protocol" "protocol" (payload.slice 9 10) (pure (.instance (.enum protocol)))
  setProtocol "::Ethernet::IPv4" protocol
  assertLength payload 12
  pushAttr "Header Checksum" "checksum" (payload.slice 10 12)
    (.number <$> readUInt16BE payload 10)
  pure protocol

def readAddresses (payload : Payload) : Dissect (IPv4Address × IPv4Address) := do
  assertLength payload 16
  let source ← construct (IPv4Address.new (payload.slice 12 16).bytes)
  pushAttr "Source IP Address" "src" (payload.slice 12 16)
    (pure (.instance (.ipv4Address source)))
  assertLength payload 20
  let destination ← construct (IPv4Address.new (payload.slice 16 20).bytes)
  pushAttr "Destination IP Address" "dst" (payload.slice 16 20)
    (pure (.instance (.ipv4Address destination)))
  pure (source, destination)

/-- The first 20 bytes. -/
def readHeader (payload : Payload) : Dissect Header := do
  let totalLength ← readLengths payload
  readFragment payload
  let protocol ← readProtocol payload
  let addresses ← readAddresses payload
  pure ⟨totalLength, protocol, addresses.1, addresses.2⟩

/-! ### The method -/

/-- What follows the header. Its options are not read. -/
def finish (payload : Payload) (header : Header) : Dissect PUnit := do
  assertLength payload header.totalLength
  pushPayload (payload.slice 20 header.totalLength)
  summarize header.protocol (header.source.toString ++ " -> " ++ header.destination.toString)

def body (payload : Payload) : Dissect PUnit := do
  let header ← readHeader payload
  finish payload header

/-- `new Layer()` with its name and namespace. -/
def start (parentLayer : ParentLayer) : Analysis where
  layer := { name := "IPv4", ns := "::Ethernet::IPv4" }
  parentLayer := parentLayer

/-- `analyze` -/
def analyze (parentLayer : ParentLayer) : Analysis :=
  run (body parentLayer.payload) (start parentLayer)

end IPv4Dissector

/-! ### Datagrams -/

/-- A datagram of RFC 791. The lengths are those of its options and data. -/
structure IPv4Datagram where
  version : Fin 16
  type : UInt8
  id : UInt16
  reserved : Bool
  dontFragment : Bool
  moreFragments : Bool
  fragmentOffset : Fin (2 ^ 13)
  ttl : UInt8
  protocol : UInt8
  checksum : UInt16
  src : IPv4Address
  dst : IPv4Address
  options : List UInt8
  data : List UInt8
  length_options : options.length ≤ 40
  words : 4 ∣ options.length
  length_le : 20 + options.length + data.length < 2 ^ 16

namespace IPv4Datagram

variable (d : IPv4Datagram)

/-- IHL, which counts words of 4 bytes. -/
def headerLength : ℕ := 5 + d.options.length / 4

def totalLength : ℕ := 20 + d.options.length + d.data.length

/-- The three flags, as a number. -/
def flags : ℕ := 4 * d.reserved.toNat + 2 * d.dontFragment.toNat + d.moreFragments.toNat

def encode : List UInt8 :=
  UInt8.ofNat (d.version * 16 + d.headerLength) :: d.type ::
    (BigEndian.bytes 2 d.totalLength ++ (BigEndian.bytes 2 d.id.toNat ++
      (UInt8.ofNat (d.flags * 32 + d.fragmentOffset.val / 256) :: UInt8.ofNat (d.fragmentOffset.val % 256) ::
        d.ttl :: d.protocol :: (BigEndian.bytes 2 d.checksum.toNat ++ (d.src.data ++ (d.dst.data ++
          (d.options ++ d.data)))))))

lemma headerLength_eq : 4 * d.headerLength = 20 + d.options.length := by
  have hwords := Nat.mul_div_cancel' d.words
  unfold headerLength
  omega

lemma headerLength_lt : d.headerLength < 16 := by
  have hle := d.length_options
  unfold headerLength
  omega

lemma totalLength_lt : d.totalLength < 256 ^ 2 := by
  have hle := d.length_le
  unfold totalLength
  omega

lemma flags_lt : d.flags < 8 := by
  have hr := d.reserved.toNat_lt
  have hd := d.dontFragment.toNat_lt
  have hm := d.moreFragments.toNat_lt
  unfold flags
  omega

end IPv4Datagram

namespace IPv4Dissector

/-! ### What is read -/

variable {payload : Payload} {src dst : IPv4Address}

lemma fills_readLengths (hlen : 6 ≤ payload.length) :
    Fills (readLengths payload) (BigEndian.value (payload.slice 2 4).bytes) 5
      [("version", .number (payload.byte 0 >>> 4)),
       ("headerLength", .number (payload.byte 0 &&& 0b00001111)),
       ("type", .number (payload.byte 1)),
       ("totalLength", .number (BigEndian.value (payload.slice 2 4).bytes)),
       ("id", .number (BigEndian.value (payload.slice 4 6).bytes))] := by
  unfold readLengths
  refine .after (returns_assertLength (by omega)) ?_
  refine .pushAttr (returns_map (returns_readUInt8 (by omega)) _) ?_
  refine .pushAttr (returns_map (returns_readUInt8 (by omega)) _) ?_
  refine .after (returns_assertLength (by omega)) ?_
  refine .pushAttr (returns_map (returns_readUInt8 (by omega)) _) ?_
  refine .after (returns_assertLength (by omega)) ?_
  refine .after (returns_readUInt16BE (by omega)) ?_
  refine .pushAttr (fun _ => rfl) ?_
  refine .after (returns_assertLength hlen) ?_
  refine .pushAttr (returns_map (returns_readUInt16BE hlen) _) ?_
  exact fills_pure _

lemma fills_readFragment (hlen : 7 ≤ payload.length) :
    Fills (readFragment payload) ⟨⟩ 2
      [("flags", .instance (.flags (.ofClass .field ((payload.byte 6 >>> 5) &&& 0x7 : ℕ)))),
       ("fragmentOffset", .number (payload.byte 6 &&& 0b0001111111111111))] := by
  unfold readFragment
  refine .after (returns_assertLength hlen) ?_
  refine .after (returns_readUInt8 hlen) ?_
  refine .push ?_
  refine .setAttr ?_
  exact fills_pushAttr (returns_map (returns_readUInt8 hlen) _)

lemma fills_readProtocol (hlen : 12 ≤ payload.length) :
    Fills (readProtocol payload) (.ofClass .ipv4Protocol (payload.byte 9)) 3
      [("ttl", .number (payload.byte 8)),
       ("protocol", .instance (.enum (.ofClass .ipv4Protocol (payload.byte 9)))),
       ("checksum", .number (BigEndian.value (payload.slice 10 12).bytes))] := by
  unfold readProtocol
  refine .after (returns_assertLength (by omega)) ?_
  refine .pushAttr (returns_map (returns_readUInt8 (by omega)) _) ?_
  refine .after (returns_assertLength (by omega)) ?_
  refine .after (returns_readUInt8 (by omega)) ?_
  refine .pushAttr (fun _ => rfl) ?_
  refine (fills_setProtocol _ _).bind ?_
  refine .after (returns_assertLength hlen) ?_
  refine .pushAttr (returns_map (returns_readUInt16BE hlen) _) ?_
  exact fills_pure _

lemma fills_readAddresses (hlen : 20 ≤ payload.length)
    (hsrc : IPv4Address.new (payload.slice 12 16).bytes = .ok src)
    (hdst : IPv4Address.new (payload.slice 16 20).bytes = .ok dst) :
    Fills (readAddresses payload) (src, dst) 2
      [("src", .instance (.ipv4Address src)), ("dst", .instance (.ipv4Address dst))] := by
  unfold readAddresses
  apply Fills.pushConstructed (by omega) hsrc
  apply Fills.pushConstructed hlen hdst
  exact fills_pure _

/-- The attributes of a header. -/
def attrsOf (payload : Payload) (src dst : IPv4Address) : List (String × Attr) :=
  [("version", .number (payload.byte 0 >>> 4)),
   ("headerLength", .number (payload.byte 0 &&& 0b00001111)),
   ("type", .number (payload.byte 1)),
   ("totalLength", .number (BigEndian.value (payload.slice 2 4).bytes)),
   ("id", .number (BigEndian.value (payload.slice 4 6).bytes)),
   ("flags", .instance (.flags (.ofClass .field ((payload.byte 6 >>> 5) &&& 0x7 : ℕ)))),
   ("fragmentOffset", .number (payload.byte 6 &&& 0b0001111111111111)),
   ("ttl", .number (payload.byte 8)),
   ("protocol", .instance (.enum (.ofClass .ipv4Protocol (payload.byte 9)))),
   ("checksum", .number (BigEndian.value (payload.slice 10 12).bytes)),
   ("src", .instance (.ipv4Address src)),
   ("dst", .instance (.ipv4Address dst))]

lemma fills_readHeader (hlen : 20 ≤ payload.length)
    (hsrc : IPv4Address.new (payload.slice 12 16).bytes = .ok src)
    (hdst : IPv4Address.new (payload.slice 16 20).bytes = .ok dst) :
    Fills (readHeader payload)
      ⟨BigEndian.value (payload.slice 2 4).bytes, .ofClass .ipv4Protocol (payload.byte 9), src, dst⟩
      12 (attrsOf payload src dst) := by
  unfold readHeader
  refine (fills_readLengths (by omega)).bind ?_
  refine (fills_readFragment (by omega)).bind ?_
  refine (fills_readProtocol (by omega)).bind ?_
  refine (fills_readAddresses hlen hsrc hdst).bind ?_
  exact fills_pure _

lemma returns_finish (header : Header) (hlen : header.totalLength ≤ payload.length) (a : Analysis) :
    ∃ t, Returns (finish payload header) a ⟨⟩ t ∧ t.layer.attrs = a.layer.attrs ∧
      t.layer.error = a.layer.error ∧
      t.layer.payload = some (payload.slice 20 header.totalLength) := by
  refine ⟨_, (returns_assertLength hlen a).bind rfl, rfl, rfl, rfl⟩

/-- The layer of a header whose total length is there. -/
lemma layer_analyze {parentLayer : ParentLayer} (hlen : 20 ≤ parentLayer.payload.length)
    (hsrc : IPv4Address.new (parentLayer.payload.slice 12 16).bytes = .ok src)
    (hdst : IPv4Address.new (parentLayer.payload.slice 16 20).bytes = .ok dst)
    (htotal : BigEndian.value (parentLayer.payload.slice 2 4).bytes ≤ parentLayer.payload.length) :
    (analyze parentLayer).layer.attrs =
        assign (fun _ => none) (attrsOf parentLayer.payload src dst) ∧
      (analyze parentLayer).layer.error = none ∧
      (analyze parentLayer).layer.payload = some (parentLayer.payload.slice 20
        (BigEndian.value (parentLayer.payload.slice 2 4).bytes)) := by
  obtain ⟨t, hheader, hfilled⟩ := fills_readHeader hlen hsrc hdst (start parentLayer)
  obtain ⟨r, hfinish, hattrs, herror, hpayload⟩ := returns_finish ⟨_, _, src, dst⟩ htotal t
  have hlayer : (analyze parentLayer).layer = r.layer := layer_run (hheader.bind hfinish)
  rw [hlayer]
  exact ⟨hattrs.trans hfilled.attrs, herror.trans hfilled.error, hpayload⟩

/-! ### What is read of a datagram -/

variable {d : IPv4Datagram} {padding : List UInt8}

/-- The attributes that the dissector reads of a datagram. -/
def asRead (d : IPv4Datagram) : List (String × Attr) :=
  [("version", .number d.version),
   ("headerLength", .number d.headerLength),
   ("type", .number d.type.toNat),
   ("totalLength", .number d.totalLength),
   ("id", .number d.id.toNat),
   ("flags", .instance (.flags (.ofClass .field (d.flags : ℕ)))),
   ("fragmentOffset", .number (d.flags * 32 + d.fragmentOffset.val / 256)),
   ("ttl", .number d.ttl.toNat),
   ("protocol", .instance (.enum (.ofClass .ipv4Protocol d.protocol.toNat))),
   ("checksum", .number d.checksum.toNat),
   ("src", .instance (.ipv4Address d.src)),
   ("dst", .instance (.ipv4Address d.dst))]

/-- A number of two parts. -/
lemma split_eq {k m n : ℕ} (hn : n < 2 ^ k) :
    (m * 2 ^ k + n) >>> k = m ∧ (m * 2 ^ k + n) &&& (2 ^ k - 1) = n := by
  rw [Nat.shiftRight_eq_div_pow, Nat.and_two_pow_sub_one_eq_mod]
  constructor
  · rw [Nat.mul_comm, Nat.mul_add_div (Nat.two_pow_pos k), Nat.div_eq_of_lt hn, Nat.add_zero]
  · rw [Nat.mul_comm, Nat.mul_add_mod, Nat.mod_eq_of_lt hn]

lemma new_slice {data : List UInt8} {x : IPv4Address} (h : data = x.data) :
    IPv4Address.new data = .ok x := by
  subst h
  exact dif_pos x.length_eq

/-- The bytes of the header of a datagram, in a payload. -/
structure HasHeader (payload : Payload) (d : IPv4Datagram) : Prop where
  first : payload.byte 0 = d.version * 2 ^ 4 + d.headerLength
  type : payload.byte 1 = d.type.toNat
  totalLength : (payload.slice 2 4).bytes = BigEndian.bytes 2 d.totalLength
  id : (payload.slice 4 6).bytes = BigEndian.bytes 2 d.id.toNat
  flags : payload.byte 6 = d.flags * 2 ^ 5 + d.fragmentOffset.val / 256
  ttl : payload.byte 8 = d.ttl.toNat
  protocol : payload.byte 9 = d.protocol.toNat
  checksum : (payload.slice 10 12).bytes = BigEndian.bytes 2 d.checksum.toNat
  src : (payload.slice 12 16).bytes = d.src.data
  dst : (payload.slice 16 20).bytes = d.dst.data
  rest : payload.HasAt 20 (d.options ++ d.data)

lemma hasHeader (h : payload.bytes = d.encode ++ padding) : HasHeader payload d := by
  have hversion := d.version.isLt
  have hheader := d.headerLength_lt
  have hflags := d.flags_lt
  have hoffset := d.fragmentOffset.isLt
  have hid : (BigEndian.bytes 2 d.id.toNat).length = 2 := BigEndian.length_bytes d.id.toNat_lt
  have hchecksum : (BigEndian.bytes 2 d.checksum.toNat).length = 2 :=
    BigEndian.length_bytes d.checksum.toNat_lt
  have htotal : (BigEndian.bytes 2 d.totalLength).length = 2 :=
    BigEndian.length_bytes d.totalLength_lt
  have h0 : payload.HasAt 0 d.encode := .of_bytes h
  have h2 : payload.HasAt 2 _ := h0.tail.tail
  have h4 : payload.HasAt 4 _ := h2.skip htotal
  have h6 : payload.HasAt 6 _ := h4.skip hid
  have h8 : payload.HasAt 8 _ := h6.tail.tail
  have h10 : payload.HasAt 10 _ := h8.tail.tail
  have h12 : payload.HasAt 12 _ := h10.skip hchecksum
  have h16 : payload.HasAt 16 _ := h12.skip d.src.length_eq
  exact {
    first := h0.byte.trans (UInt8.toNat_ofNat_of_lt' (show _ < 256 by omega))
    type := h0.tail.byte
    totalLength := h2.left.slice_eq htotal rfl
    id := h4.left.slice_eq hid rfl
    flags := h6.byte.trans (UInt8.toNat_ofNat_of_lt' (show _ < 256 by omega))
    ttl := h8.byte
    protocol := h8.tail.byte
    checksum := h10.left.slice_eq hchecksum rfl
    src := h12.left.slice_eq d.src.length_eq rfl
    dst := h16.left.slice_eq d.dst.length_eq rfl
    rest := h16.skip d.dst.length_eq }

/-- The attributes of the bytes of a datagram. -/
lemma HasHeader.attrsOf_eq (h : HasHeader payload d) : attrsOf payload d.src d.dst = asRead d := by
  have hversion : (d.version * 2 ^ 4 + d.headerLength) >>> 4 = d.version :=
    (split_eq d.headerLength_lt).1
  have hheader : (d.version * 2 ^ 4 + d.headerLength) &&& 0b00001111 = d.headerLength :=
    (split_eq d.headerLength_lt).2
  have hhigh : d.fragmentOffset.val / 256 < 2 ^ 5 := by omega
  have hflags : (d.flags * 2 ^ 5 + d.fragmentOffset.val / 256) >>> 5 &&& 0x7 = d.flags := by
    rw [(split_eq hhigh).1, show 0x7 = 2 ^ 3 - 1 from rfl, Nat.and_two_pow_sub_one_eq_mod,
      Nat.mod_eq_of_lt d.flags_lt]
  -- the mask of 13 bits leaves a byte as it is
  have hoffset : payload.byte 6 &&& 0b0001111111111111 = payload.byte 6 := by
    have hbyte := payload.byte_lt 6
    rw [show 0b0001111111111111 = 2 ^ 13 - 1 from rfl, Nat.and_two_pow_sub_one_eq_mod,
      Nat.mod_eq_of_lt (by omega)]
  unfold attrsOf asRead
  rw [hoffset, h.first, h.type, h.totalLength, h.id, h.flags, h.ttl, h.protocol, h.checksum,
    hversion, hheader, hflags, BigEndian.value_bytes, BigEndian.value_bytes, BigEndian.value_bytes]
  rfl

lemma nodup_asRead (d : IPv4Datagram) : ((asRead d).map Prod.fst).Nodup := by
  have hkeys : (asRead d).map Prod.fst = ["version", "headerLength", "type", "totalLength", "id",
    "flags", "fragmentOffset", "ttl", "protocol", "checksum", "src", "dst"] := rfl
  rw [hkeys]
  decide

variable {parentLayer : ParentLayer}

/-- The layer of a datagram. -/
lemma layer_datagram (h : parentLayer.payload.bytes = d.encode ++ padding) :
    (analyze parentLayer).layer.attrs = assign (fun _ => none) (asRead d) ∧
      (analyze parentLayer).layer.error = none ∧
      ((analyze parentLayer).layer.payload.map Buffer.bytes) = some (d.options ++ d.data) := by
  have hheader := hasHeader h
  have hle := hheader.rest.le
  rw [List.length_append] at hle
  have htotal : BigEndian.value (parentLayer.payload.slice 2 4).bytes = d.totalLength := by
    rw [hheader.totalLength, BigEndian.value_bytes]
  have hlen : d.totalLength ≤ parentLayer.payload.length := by
    unfold IPv4Datagram.totalLength
    omega
  obtain ⟨hattrs, herror, hpayload⟩ := layer_analyze (by omega) (new_slice hheader.src)
    (new_slice hheader.dst) (htotal ▸ hlen)
  refine ⟨by rw [hattrs, hheader.attrsOf_eq], herror, ?_⟩
  rw [hpayload, htotal, Option.map_some, hheader.rest.slice_eq List.length_append]
  unfold IPv4Datagram.totalLength
  omega

/-! ### The inverse of the header -/

/-- The layer says what the datagram says. -/
structure Inverts (l : ScriptLayer) (d : IPv4Datagram) : Prop where
  version : l.attrs "version" = some (.number d.version)
  headerLength : l.attrs "headerLength" = some (.number d.headerLength)
  type : l.attrs "type" = some (.number d.type.toNat)
  totalLength : l.attrs "totalLength" = some (.number d.totalLength)
  id : l.attrs "id" = some (.number d.id.toNat)
  flags : ∃ flags : Flags, l.attrs "flags" = some (.instance (.flags flags)) ∧
    flags.get "Reserved" = d.reserved ∧ flags.get "Don't Fragment" = d.dontFragment ∧
    flags.get "More Fragments" = d.moreFragments
  fragmentOffset : l.attrs "fragmentOffset" = some (.number d.fragmentOffset)
  ttl : l.attrs "ttl" = some (.number d.ttl.toNat)
  protocol : l.attrs "protocol" = some (.instance (.enum (.ofClass .ipv4Protocol d.protocol.toNat)))
  checksum : l.attrs "checksum" = some (.number d.checksum.toNat)
  src : l.attrs "src" = some (.instance (.ipv4Address d.src))
  dst : l.attrs "dst" = some (.instance (.ipv4Address d.dst))
  error : l.error = none
  payload : l.payload.map Buffer.bytes = some d.data

/-- The table has the masks of the flags the other way round. -/
lemma get_flags (d : IPv4Datagram) :
    (Flags.ofClass .field (d.flags : ℕ)).get "Reserved" = d.moreFragments ∧
      (Flags.ofClass .field (d.flags : ℕ)).get "Don't Fragment" = d.dontFragment ∧
      (Flags.ofClass .field (d.flags : ℕ)).get "More Fragments" = d.reserved := by
  unfold IPv4Datagram.flags
  cases d.reserved <;> cases d.dontFragment <;> cases d.moreFragments <;> exact ⟨rfl, rfl, rfl⟩

/-- Which fragment offsets agree with the byte that is read. -/
lemma fragmentOffset_iff (d : IPv4Datagram) :
    d.flags * 32 + d.fragmentOffset.val / 256 = d.fragmentOffset ↔
      d.fragmentOffset.val = 32 * d.flags := by
  have hflags := d.flags_lt
  omega

/-- A datagram is read as it is exactly if it has no options, its flags `Reserved` and
`More Fragments` agree, and its fragment offset is the flags in the place where they stand. -/
theorem inverts_iff (h : parentLayer.payload.bytes = d.encode ++ padding) :
    Inverts (analyze parentLayer).layer d ↔
      d.headerLength = 5 ∧ d.reserved = d.moreFragments ∧ d.fragmentOffset.val = 32 * d.flags := by
  obtain ⟨hattrs, herror, hpayload⟩ := layer_datagram h
  obtain ⟨hreserved, hdont, hmore⟩ := get_flags d
  have hget : ∀ key value, (asRead d).lookup key = some value →
      (analyze parentLayer).layer.attrs key = some value := by
    intro key value hlookup
    rw [hattrs, assign_of_lookup (nodup_asRead d) hlookup]
  have hflags := hget "flags" _ rfl
  have hoffset := hget "fragmentOffset" _ rfl
  constructor
  · intro hinv
    obtain ⟨flags, hflags', hr, -, -⟩ := hinv.flags
    rw [hflags, Option.some.injEq, Attr.instance.injEq, Instance.flags.injEq] at hflags'
    rw [← hflags', hreserved] at hr
    have ho := hinv.fragmentOffset
    rw [hoffset, Option.some.injEq, Attr.number.injEq, fragmentOffset_iff] at ho
    have hdata := hinv.payload
    rw [hpayload, Option.some.injEq, List.append_left_eq_self] at hdata
    exact ⟨by rw [IPv4Datagram.headerLength, hdata, List.length_nil], hr.symm, ho⟩
  · rintro ⟨hwords, hr, ho⟩
    have heq := d.headerLength_eq
    have hdata : d.options = [] := List.eq_nil_of_length_eq_zero (by omega)
    exact {
      version := hget _ _ rfl
      headerLength := hget _ _ rfl
      type := hget _ _ rfl
      totalLength := hget _ _ rfl
      id := hget _ _ rfl
      flags := ⟨_, hflags, hreserved.trans hr.symm, hdont, hmore.trans hr⟩
      fragmentOffset := by rw [hoffset, (fragmentOffset_iff d).mpr ho]
      ttl := hget _ _ rfl
      protocol := hget _ _ rfl
      checksum := hget _ _ rfl
      src := hget _ _ rfl
      dst := hget _ _ rfl
      error := herror
      payload := by rw [hpayload, hdata, List.nil_append] }

/-! ### Samples -/

/-- A datagram of TCP with two bytes of data. -/
def plain : IPv4Datagram where
  version := 4
  type := 0
  id := 7
  reserved := false
  dontFragment := false
  moreFragments := false
  fragmentOffset := 0
  ttl := 64
  protocol := 6
  checksum := 0
  src := ⟨[172, 16, 0, 1], rfl⟩
  dst := ⟨[172, 16, 0, 2], rfl⟩
  options := []
  data := [0x68, 0x69]
  length_options := by decide
  words := by decide
  length_le := by decide

/-- It must not be fragmented. -/
def whole : IPv4Datagram := { plain with dontFragment := true }

/-- Its first fragment. -/
def fragment : IPv4Datagram := { plain with moreFragments := true }

/-- It has four options that do nothing. -/
def padded : IPv4Datagram :=
  { plain with
    options := [1, 1, 1, 1]
    length_options := by decide
    words := by decide
    length_le := by decide }

/-- A frame of Ethernet with a datagram and two bytes of padding. -/
def frameOf (d : IPv4Datagram) (h : (d.encode ++ [0, 0]).length < 2 ^ 63) : ParentLayer where
  ns := "::Ethernet::<IPv4>"
  payload := Hex.ofVec (d.encode ++ [0, 0]) h
  fields := []
  attrs := fun _ => none
  layers := fun _ => none

theorem inverts_iff_plain : Inverts (analyze (frameOf plain (by decide))).layer plain ↔
    plain.headerLength = 5 ∧ plain.reserved = plain.moreFragments ∧
      plain.fragmentOffset.val = 32 * plain.flags :=
  inverts_iff (Hex.bytes_ofVec _)

/-- A datagram that must not be fragmented gets the fragment offset 64, the first fragment the flag
`Reserved`, and options are in the payload. -/
theorem datagrams_lost :
    ((analyze (frameOf whole (by decide))).layer.attrs "fragmentOffset" = some (.number 64) ∧
      ¬ Inverts (analyze (frameOf whole (by decide))).layer whole) ∧
    ¬ Inverts (analyze (frameOf fragment (by decide))).layer fragment ∧
    ((analyze (frameOf padded (by decide))).layer.payload.map Buffer.bytes =
        some [1, 1, 1, 1, 0x68, 0x69] ∧
      ¬ Inverts (analyze (frameOf padded (by decide))).layer padded) := by
  refine ⟨⟨rfl, ?_⟩, ?_, rfl, ?_⟩
  · intro h
    have hoffset : some (Attr.number 64) = some (.number 0) := h.fragmentOffset
    cases hoffset
  · intro h
    obtain ⟨flags, hflags, hr, -, -⟩ := h.flags
    cases hflags
    cases hr
  · intro h
    have hpayload : some [1, 1, 1, 1, 0x68, 0x69] = some padded.data := h.payload
    cases hpayload

end IPv4Dissector

end Dripcap
