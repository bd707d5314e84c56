import Dripcap.Dissector.Analysis

/-!
# The IPv6 dissector

`IPv6Dissector` of `ipv6.es`. It follows the extension headers by a loop, which is given a number of
rounds here.
-/

namespace Dripcap

open Outcome Dissect

namespace Dissect

/-- `layer.fields[layer.fields.length - 1].fields.unshift(field)` -/
def unshiftField (field : Field) : Dissect PUnit := do
  let a ← get
  match a.layer.fields.getLast? with
  | none => throw (.thrown "Cannot read property 'fields' of undefined")
  | some f => modifyLayer fun l =>
      { l with fields := l.fields.dropLast ++ [{ f with fields := field :: f.fields }] }

end Dissect

namespace IPv6Dissector

/-! ### The header -/

/-- What the dissector has read before the extension headers. -/
structure Header where
  payloadLength : ℕ
  nextHeader : ℕ
  source : IPv6Address
  destination : IPv6Address

/-- A next header as a value. -/
def protocolEnum (nextHeader : ℕ) : Attr := .instance (.enum (.ofClass .ipv6Protocol nextHeader))

/-- From the version to the payload length. -/
def readLengths (payload : Payload) : Dissect ℕ := do
  assertLength payload 1
  pushAttr "Version" "version" (payload.slice 0 1)
    ((fun byte => .number (byte >>> 4)) <$> readUInt8 payload 0)
  assertLength payload 2
  pushAttr "Traffic Class" "trafficClass" (payload.slice 0 2) do
    let high ← readUInt8 payload 0
    let low ← readUInt8 payload 1
    pure (.number (((high &&& 0b00001111) <<< 4) ||| ((low &&& 0b11110000) >>> 4)))
  assertLength payload 4
  let low ← readUInt16BE payload 2
  let high ← readUInt8 payload 1
  pushAttr "Flow Label" "flowLevel" (payload.slice 1 4)
    (pure (.number (low ||| ((high &&& 0b00001111) <<< 16))))
  assertLength payload 6
  let payloadLength ← readUInt16BE payload 4
  pushAttr "Payload Length" "payloadLength" (payload.slice 4 6) (pure (.number payloadLength))
  pure payloadLength

def readAddresses (payload : Payload) : Dissect (IPv6Address × IPv6Address) := do
  assertLength payload 24
  let source ← construct (IPv6Address.new (payload.slice 8 24).bytes)
  pushAttr "Source IP Address" "src" (payload.slice 8 24) (pure (.instance (.ipv6Address source)))
  assertLength payload 40
  let destination ← construct (IPv6Address.new (payload.slice 24 40).bytes)
  pushAttr "Destination IP Address" "dst" (payload.slice 24 40)
    (pure (.instance (.ipv6Address destination)))
  pure (source, destination)

/-- The first 40 bytes. -/
def readHeader (payload : Payload) : Dissect Header := do
  let payloadLength ← readLengths payload
  assertLength payload 7
  let nextHeader ← readUInt8 payload 6
  push { name := "Next Header", value := some (protocolEnum nextHeader), data := payload.slice 6 7 }
  assertLength payload 8
  pushAttr "Hop Limit" "hopLimit" (payload.slice 7 8) (.number <$> readUInt8 payload 7)
  let addresses ← readAddresses payload
  pure ⟨payloadLength, nextHeader, addresses.1, addresses.2⟩

/-! ### The extension headers -/

/-- The next header, where it stands, and the offset after it. -/
structure Position where
  nextHeader : ℕ
  nextHeaderData : Payload
  offset : ℕ

/-- `Hop-by-Hop Options` or `Destination Options`, at an offset. -/
def readExtension (payload : Payload) (nextHeader offset : ℕ) : Dissect Position := do
  let byte ← readUInt8 payload (offset + 1)
  let extLen := (byte + 1) * 8
  assertLength payload (offset + extLen)
  let length ← readUInt8 payload (offset + 1)
  push {
    name := if nextHeader = 0 then "Hop-by-Hop Options" else "Destination Options"
    data := payload.slice offset (offset + extLen)
    fields :=
      [{ name := "Hdr Ext Len", value := some (.number length),
         note := some ("(" ++ toString extLen ++ " bytes)"),
         data := payload.slice (offset + 1) (offset + 2) },
       { name := "Options and Padding",
         value := some (.buffer (payload.slice (offset + 2) (offset + extLen)).bytes),
         data := payload.slice (offset + 2) (offset + extLen) }] }
  let nextHeader ← readUInt8 payload offset
  let nextHeaderData := payload.slice offset (offset + 1)
  unshiftField
    { name := "Next Header", value := some (protocolEnum nextHeader), data := nextHeaderData }
  pure ⟨nextHeader, nextHeaderData, offset + extLen⟩

/-- The loop, for a number of rounds: `none` if there are more. -/
def readExtensions (payload : Payload) : ℕ → Position → Dissect (Option Position)
  | 0, _ => pure none
  | rounds + 1, position =>
    if position.nextHeader = 0 ∨ position.nextHeader = 60 then do
      let next ← readExtension payload position.nextHeader position.offset
      readExtensions payload rounds next
    else pure (some position)

/-! ### The method -/

/-- The fields `Protocol` and `Payload`, which goes to the end of the frame. -/
def finish (payload : Payload) (header : Header) (position : Position) : Dissect PUnit := do
  let protocol := Enum.ofClass .ipv6Protocol position.nextHeader
  setProtocol "::Ethernet::IPv6" protocol
  pushAttr "Protocol" "protocol" position.nextHeaderData (pure (.instance (.enum protocol)))
  pushPayload (payload.slice position.offset payload.length)
  summarize protocol (header.source.toString ++ " -> " ++ header.destination.toString)

/-- `if (payloadLength > 0) assertLength(payloadLength + 40);` -/
def assertPayload (payload : Payload) (payloadLength : ℕ) : Dissect PUnit :=
  if 0 < payloadLength then assertLength payload (payloadLength + 40) else pure ⟨⟩

/-- What follows the header. As many rounds as there are bytes, and one more, are enough for the
extension headers. -/
def readBody (payload : Payload) (header : Header) : Dissect PUnit := do
  assertPayload payload header.payloadLength
  let position ←
    readExtensions payload (payload.length + 1) ⟨header.nextHeader, payload.slice 6 7, 40⟩
  match position with
  | none => pure ⟨⟩
  | some position => finish payload header position

def body (payload : Payload) : Dissect PUnit := do
  let header ← readHeader payload
  readBody payload header

/-- `new Layer()` with its name and namespace. -/
def start (parentLayer : ParentLayer) : Analysis where
  layer := { name := "IPv6", ns := "::Ethernet::IPv6" }
  parentLayer := parentLayer

/-- `analyze` -/
def analyze (parentLayer : ParentLayer) : Analysis :=
  run (body parentLayer.payload) (start parentLayer)

/-! ### What is read of the header -/

variable {payload : Payload} {src dst : IPv6Address}

/-- The attributes of the first six bytes. -/
def lengthsOf (payload : Payload) : List (String × Attr) :=
  [("version", .number (payload.byte 0 >>> 4)),
   ("trafficClass", .number (((payload.byte 0 &&& 0b00001111) <<< 4) |||
      ((payload.byte 1 &&& 0b11110000) >>> 4))),
   ("flowLevel", .number (BigEndian.value (payload.slice 2 4).bytes |||
      ((payload.byte 1 &&& 0b00001111) <<< 16))),
   ("payloadLength", .number (BigEndian.value (payload.slice 4 6).bytes))]

lemma fills_readLengths (hlen : 6 ≤ payload.length) :
    Fills (readLengths payload) (BigEndian.value (payload.slice 4 6).bytes) 4 (lengthsOf payload) := by
  unfold readLengths
  refine .after (returns_assertLength (by omega)) ?_
  refine .pushAttr (returns_map (returns_readUInt8 (by omega)) _) ?_
  refine .after (returns_assertLength (by omega)) ?_
  refine .pushAttr (fun a => (returns_readUInt8 (by omega) a).bind
    ((returns_readUInt8 (by omega) a).bind rfl)) ?_
  refine .after (returns_assertLength (by omega)) ?_
  refine .after (returns_readUInt16BE (by omega)) ?_
  refine .after (returns_readUInt8 (by omega)) ?_
  refine .pushAttr (fun _ => rfl) ?_
  refine .after (returns_assertLength hlen) ?_
  refine .after (returns_readUInt16BE hlen) ?_
  refine .pushAttr (fun _ => rfl) ?_
  exact fills_pure _

lemma fills_readAddresses (hlen : 40 ≤ payload.length)
    (hsrc : IPv6Address.new (payload.slice 8 24).bytes = .ok src)
    (hdst : IPv6Address.new (payload.slice 24 40).bytes = .ok dst) :
    Fills (readAddresses payload) (src, dst) 2
      [("src", .instance (.ipv6Address src)), ("dst", .instance (.ipv6Address dst))] := by
  unfold readAddresses
  apply Fills.pushConstructed (by omega) hsrc
  apply Fills.pushConstructed hlen hdst
  exact fills_pure _

lemma fills_readHeader (hlen : 40 ≤ payload.length)
    (hsrc : IPv6Address.new (payload.slice 8 24).bytes = .ok src)
    (hdst : IPv6Address.new (payload.slice 24 40).bytes = .ok dst) :
    Fills (readHeader payload)
      ⟨BigEndian.value (payload.slice 4 6).bytes, payload.byte 6, src, dst⟩ 8
      (lengthsOf payload ++ [("hopLimit", .number (payload.byte 7)),
        ("src", .instance (.ipv6Address src)), ("dst", .instance (.ipv6Address dst))]) := by
  unfold readHeader
  refine (fills_readLengths (by omega)).bind ?_
  refine .after (returns_assertLength (by omega)) ?_
  refine .after (returns_readUInt8 (by omega)) ?_
  refine .push ?_
  refine .after (returns_assertLength (by omega)) ?_
  refine .pushAttr (returns_map (returns_readUInt8 (by omega)) _) ?_
  refine (fills_readAddresses hlen hsrc hdst).bind ?_
  exact fills_pure _

end IPv6Dissector

/-! ### Frames -/

/-- The extension headers that the dissector follows. -/
inductive IPv6ExtensionKind where
  | hopByHop | destination
  deriving DecidableEq

/-- An extension header after its first two bytes. -/
structure IPv6Extension where
  kind : IPv6ExtensionKind
  options : List UInt8
  units : 8 ∣ options.length + 2
  length_le : options.length + 2 ≤ 8 * 256

namespace IPv6Extension

/-- The number of a kind of header in the header before it. -/
def code : IPv6ExtensionKind → UInt8
  | .hopByHop => 0
  | .destination => 60

def name : IPv6ExtensionKind → String
  | .hopByHop => "Hop-by-Hop Options"
  | .destination => "Destination Options"

/-- The number of the header that a chain begins with. -/
def first (upper : UInt8) : List IPv6Extension → UInt8
  | [] => upper
  | e :: _ => code e.kind

/-- A chain of headers before a protocol. -/
def encode (upper : UInt8) : List IPv6Extension → List UInt8
  | [] => []
  | e :: chain => first upper chain :: UInt8.ofNat ((e.options.length + 2) / 8 - 1) ::
      (e.options ++ encode upper chain)

/-- The bytes of each header of a chain. -/
def headers (upper : UInt8) : List IPv6Extension → List (List UInt8)
  | [] => []
  | e :: chain => (first upper chain :: UInt8.ofNat ((e.options.length + 2) / 8 - 1) :: e.options) ::
      headers upper chain

variable (payload : Payload) (offset : ℕ)

/-- The field of a header at an offset, with the number of the next one. -/
def field (e : IPv6Extension) (nextHeader : UInt8) : Field where
  name := name e.kind
  data := payload.slice offset (offset + (e.options.length + 2))
  fields :=
    [{ name := "Next Header", value := some (IPv6Dissector.protocolEnum nextHeader.toNat),
       data := payload.slice offset (offset + 1) },
     { name := "Hdr Ext Len", value := some (.number ((e.options.length + 2) / 8 - 1)),
       note := some ("(" ++ toString (e.options.length + 2) ++ " bytes)"),
       data := payload.slice (offset + 1) (offset + 2) },
     { name := "Options and Padding", value := some (.buffer e.options),
       data := payload.slice (offset + 2) (offset + (e.options.length + 2)) }]

/-- The fields of a chain. -/
def fields (upper : UInt8) : ℕ → List IPv6Extension → List Field
  | _, [] => []
  | offset, e :: chain => field payload offset e (first upper chain) ::
      fields upper (offset + (e.options.length + 2)) chain

end IPv6Extension

/-- A frame of a header, a chain of extension headers and the data of an upper layer. -/
structure IPv6Frame where
  /-- the version, the traffic class and the flow label -/
  first : List UInt8
  hopLimit : UInt8
  src : IPv6Address
  dst : IPv6Address
  chain : List IPv6Extension
  upper : UInt8
  data : List UInt8
  length_first : first.length = 4
  upper_ne : upper ≠ 0 ∧ upper ≠ 60
  length_pos : 0 < (IPv6Extension.encode upper chain).length + data.length
  length_lt : (IPv6Extension.encode upper chain).length + data.length < 2 ^ 16

namespace IPv6Frame

variable (f : IPv6Frame)

def payloadLength : ℕ := (IPv6Extension.encode f.upper f.chain).length + f.data.length

def encode : List UInt8 :=
  f.first ++ (BigEndian.bytes 2 f.payloadLength ++ (IPv6Extension.first f.upper f.chain ::
    f.hopLimit :: (f.src.data ++ (f.dst.data ++ (IPv6Extension.encode f.upper f.chain ++ f.data)))))

lemma length_encode :
    f.encode.length = 40 + (IPv6Extension.encode f.upper f.chain).length + f.data.length := by
  have hlength : (BigEndian.bytes 2 f.payloadLength).length = 2 :=
    BigEndian.length_bytes f.length_lt
  simp only [encode, List.length_append, List.length_cons, f.length_first, hlength,
    f.src.length_eq, f.dst.length_eq]
  omega

lemma length_chain_le (upper : UInt8) (chain : List IPv6Extension) :
    chain.length ≤ (IPv6Extension.encode upper chain).length := by
  induction chain with
  | nil => exact Nat.zero_le _
  | cons e chain ih =>
    rw [IPv6Extension.encode, List.length_cons, List.length_cons, List.length_cons,
      List.length_append]
    omega

end IPv6Frame

lemma Dissect.returns_unshiftField {field f : Field} {fields : List Field} {a : Analysis}
    (h : a.layer.fields = fields ++ [f]) :
    Returns (unshiftField field) a ⟨⟩ { a with layer := { a.layer with
      fields := fields ++ [{ f with fields := field :: f.fields }] } } := by
  have hget : Returns (get : Dissect Analysis) a a a := rfl
  refine hget.bind ?_
  rw [h, List.getLast?_concat]
  refine (returns_modifyLayer _ a).trans ?_
  rw [h, List.dropLast_concat]

namespace IPv6Dissector

open IPv6Extension

/-! ### The loop -/

section Loop

variable {payload : Payload} {offset rounds : ℕ} {next upper : UInt8} {rest : List UInt8}

/-- One round, at an extension header. -/
lemma returns_readExtension (e : IPv6Extension)
    (h : payload.HasAt offset (next :: UInt8.ofNat ((e.options.length + 2) / 8 - 1) ::
      (e.options ++ rest))) (a : Analysis) :
    Returns (readExtension payload (code e.kind).toNat offset) a
      ⟨next.toNat, payload.slice offset (offset + 1), offset + (e.options.length + 2)⟩
      { a with layer := { a.layer with
        fields := a.layer.fields ++ [field payload offset e next] } } := by
  have hunits := e.units
  have hmax := e.length_le
  have hle := h.le
  simp only [List.length_cons, List.length_append] at hle
  have hbyte : payload.byte (offset + 1) = (e.options.length + 2) / 8 - 1 :=
    h.tail.byte.trans (UInt8.toNat_ofNat_of_lt' (show _ < 256 by omega))
  have hext : ((e.options.length + 2) / 8 - 1 + 1) * 8 = e.options.length + 2 := by omega
  have hread := returns_readUInt8 (show offset + 1 < payload.length by omega)
  have hname : (if (code e.kind).toNat = 0 then "Hop-by-Hop Options" else "Destination Options") =
      name e.kind := by
    cases e.kind with
    | hopByHop => rfl
    | destination => rfl
  have hoptions : (payload.slice (offset + 2) (offset + (e.options.length + 2))).bytes = e.options :=
    h.tail.tail.left.slice_eq rfl (by omega)
  rw [hbyte] at hread
  unfold readExtension
  refine (hread a).bind ?_
  simp only [hext]
  refine (returns_assertLength (by omega) a).bind ?_
  refine (hread a).bind ?_
  refine (returns_modifyLayer _ a).bind ?_
  refine (returns_readUInt8 (by omega) _).bind ?_
  refine (returns_unshiftField rfl).bind ?_
  rw [h.byte, hname, hoptions]
  rfl

lemma hasAt_tail {x y : UInt8} {options : List UInt8}
    (h : payload.HasAt offset (x :: y :: (options ++ rest))) :
    payload.HasAt (offset + (options.length + 2)) rest := by
  have hskip := h.tail.tail.right
  rwa [show offset + 1 + 1 + options.length = offset + (options.length + 2) by omega] at hskip

/-- The fields of a chain have the bytes of its headers. -/
lemma bytes_fields {chain : List IPv6Extension}
    (h : payload.HasAt offset (encode upper chain ++ rest)) :
    (fields payload upper offset chain).map (fun f => f.data.bytes) = headers upper chain := by
  induction chain generalizing offset with
  | nil => rfl
  | cons e chain ih =>
    rw [encode, List.cons_append, List.cons_append, List.append_assoc] at h
    have hheader : payload.HasAt offset (first upper chain ::
        UInt8.ofNat ((e.options.length + 2) / 8 - 1) :: e.options) := by
      rw [← List.cons_append, ← List.cons_append] at h
      exact h.left
    rw [fields, List.map_cons, ih (hasAt_tail h), headers]
    exact congrArg (List.cons · (headers upper chain)) (hheader.slice_eq rfl rfl)

/-- The rounds over a chain. -/
lemma returns_readExtensions (hupper : upper ≠ 0 ∧ upper ≠ 60) {chain : List IPv6Extension}
    (h : payload.HasAt offset (encode upper chain ++ rest)) (hrounds : chain.length < rounds)
    (data : Payload) (a : Analysis) :
    ∃ data', Returns (readExtensions payload rounds ⟨(first upper chain).toNat, data, offset⟩) a
      (some ⟨upper.toNat, data', offset + (encode upper chain).length⟩)
      { a with layer := { a.layer with
        fields := a.layer.fields ++ fields payload upper offset chain } } := by
  induction chain generalizing offset rounds data a with
  | nil =>
    cases rounds with
    | zero => exact absurd hrounds (Nat.not_lt_zero _)
    | succ rounds =>
      have hother : ¬ (upper.toNat = 0 ∨ upper.toNat = 60) := by
        rw [show 0 = (0 : UInt8).toNat from rfl, show 60 = (60 : UInt8).toNat from rfl,
          UInt8.toNat_inj, UInt8.toNat_inj, not_or]
        exact hupper
      have hstop : readExtensions payload (rounds + 1) ⟨upper.toNat, data, offset⟩ =
        pure (some ⟨upper.toNat, data, offset⟩) := if_neg hother
      refine ⟨data, ?_⟩
      rw [first, hstop, fields, List.append_nil]
      rfl
  | cons e chain ih =>
    cases rounds with
    | zero => exact absurd hrounds (Nat.not_lt_zero _)
    | succ rounds =>
      have hknown : (code e.kind).toNat = 0 ∨ (code e.kind).toNat = 60 := by
        cases e.kind with
        | hopByHop => exact .inl rfl
        | destination => exact .inr rfl
      have hgo : readExtensions payload (rounds + 1) ⟨(code e.kind).toNat, data, offset⟩ =
        readExtension payload (code e.kind).toNat offset >>= readExtensions payload rounds :=
        if_pos hknown
      rw [encode, List.cons_append, List.cons_append, List.append_assoc] at h
      have hround := returns_readExtension e h a
      obtain ⟨data', hrest⟩ := ih (hasAt_tail h) (Nat.lt_of_succ_lt_succ hrounds) _ _
      refine ⟨data', ?_⟩
      rw [first, hgo]
      refine (hround.bind hrest).trans ?_
      rw [encode, fields, List.length_cons, List.length_cons, List.length_append,
        List.append_assoc]
      simp only [List.cons_append, List.nil_append]
      rw [show offset + (e.options.length + 2) + (encode upper chain).length =
        offset + (e.options.length + (encode upper chain).length + 1 + 1) by omega]

end Loop

/-- A round that goes on goes forward, inside the payload. -/
lemma lt_of_readExtension {payload : Payload} {nextHeader offset : ℕ} {a t : Analysis}
    {position : Position} (h : Returns (readExtension payload nextHeader offset) a position t) :
    offset < position.offset ∧ position.offset ≤ payload.length := by
  obtain ⟨byte, _, -, h⟩ := returns_bind.mp h
  obtain ⟨_, _, hlen, h⟩ := returns_bind.mp h
  iterate 4 obtain ⟨_, _, -, h⟩ := returns_bind.mp h
  obtain ⟨rfl, -⟩ := returns_pure.mp h
  exact ⟨Nat.lt_add_of_pos_right (by omega), le_of_returns_assertLength hlen⟩

/-- The loop ends before the rounds do, if there is one for each byte that is left and one more. -/
lemma readExtensions_ends {payload : Payload} {rounds : ℕ} {position : Position} {a t : Analysis}
    (hrounds : payload.length - position.offset < rounds) :
    ¬ Returns (readExtensions payload rounds position) a none t := by
  induction rounds generalizing position a with
  | zero => exact absurd hrounds (Nat.not_lt_zero _)
  | succ rounds ih =>
    rw [readExtensions]
    split_ifs with hgo
    · intro h
      obtain ⟨next, u, hround, h⟩ := returns_bind.mp h
      obtain ⟨hlt, hle⟩ := lt_of_readExtension hround
      exact ih (by omega) h
    · intro h
      cases (returns_pure.mp h).1

/-! ### What is read of a frame -/

section Frame

variable {payload : Payload} {f : IPv6Frame} {padding : List UInt8}

lemma new_slice {data : List UInt8} {x : IPv6Address} (h : data = x.data) :
    IPv6Address.new data = .ok x := by
  subst h
  exact dif_pos x.length_eq

/-- The bytes of the header of a frame, in a payload. -/
structure HasHeader (payload : Payload) (f : IPv6Frame) : Prop where
  payloadLength : (payload.slice 4 6).bytes = BigEndian.bytes 2 f.payloadLength
  nextHeader : payload.byte 6 = (first f.upper f.chain).toNat
  src : (payload.slice 8 24).bytes = f.src.data
  dst : (payload.slice 24 40).bytes = f.dst.data
  rest : payload.HasAt 40 (encode f.upper f.chain ++ f.data)

lemma hasHeader (h : payload.bytes = f.encode ++ padding) : HasHeader payload f := by
  have hlength : (BigEndian.bytes 2 f.payloadLength).length = 2 :=
    BigEndian.length_bytes f.length_lt
  have h0 : payload.HasAt 0 f.encode := .of_bytes h
  have h4 : payload.HasAt 4 _ := h0.skip f.length_first
  have h6 : payload.HasAt 6 _ := h4.skip hlength
  have h8 : payload.HasAt 8 _ := h6.tail.tail
  have h24 : payload.HasAt 24 _ := h8.skip f.src.length_eq
  exact {
    payloadLength := h4.left.slice_eq hlength rfl
    nextHeader := h6.byte
    src := h8.left.slice_eq f.src.length_eq rfl
    dst := h24.left.slice_eq f.dst.length_eq rfl
    rest := h24.skip f.dst.length_eq }

lemma returns_finish (payload : Payload) (header : Header) (position : Position) (a : Analysis) :
    ∃ t, Returns (finish payload header position) a ⟨⟩ t ∧
      (∃ after, t.layer.fields = a.layer.fields ++ after ∧ after.length = 2) ∧
      t.layer.attrs "protocol" = some (protocolEnum position.nextHeader) ∧
      t.layer.payload = some (payload.slice position.offset payload.length) ∧
      t.layer.error = a.layer.error := by
  obtain ⟨u, hret, hfilled⟩ :=
    fills_setProtocol "::Ethernet::IPv6" (.ofClass .ipv6Protocol position.nextHeader) a
  obtain ⟨fields, hlen, hfields⟩ := hfilled.fields
  rw [List.eq_nil_of_length_eq_zero hlen, List.append_nil] at hfields
  rw [← hfields]
  refine ⟨_, hret.bind rfl, ⟨_, List.append_assoc _ _ _, rfl⟩, ?_, rfl, hfilled.error⟩
  · show Function.update u.layer.attrs "protocol" _ "protocol" = _
    rw [Function.update_self]
    rfl

/-- The layer of a frame goes on to the end of the padding. -/
lemma layer_frame {parentLayer : ParentLayer} (h : parentLayer.payload.bytes = f.encode ++ padding) :
    (∃ before after, before.length = 8 ∧ after.length = 2 ∧ (analyze parentLayer).layer.fields =
        before ++ fields parentLayer.payload f.upper 40 f.chain ++ after) ∧
      (analyze parentLayer).layer.attrs "protocol" = some (protocolEnum f.upper.toNat) ∧
      (analyze parentLayer).layer.payload.map Buffer.bytes = some (f.data ++ padding) ∧
      (analyze parentLayer).layer.error = none := by
  have hheader := hasHeader h
  have hle := hheader.rest.le
  have hchain := IPv6Frame.length_chain_le f.upper f.chain
  rw [List.length_append] at hle
  -- the header, the length and the chain
  obtain ⟨t, hread, hfilled⟩ := fills_readHeader (by omega) (new_slice hheader.src)
    (new_slice hheader.dst) (start parentLayer)
  rw [hheader.payloadLength, BigEndian.value_bytes, hheader.nextHeader] at hread
  have hpos : 0 < f.payloadLength := f.length_pos
  have hcheck : Returns (assertPayload parentLayer.payload f.payloadLength) t ⟨⟩ t := by
    rw [assertPayload, if_pos hpos]
    refine returns_assertLength ?_ t
    unfold IPv6Frame.payloadLength
    omega
  have hrounds : f.chain.length < parentLayer.payload.length + 1 := by omega
  obtain ⟨data, hloop⟩ := returns_readExtensions f.upper_ne hheader.rest hrounds
    (parentLayer.payload.slice 6 7) t
  -- the end
  obtain ⟨r, hfinish, ⟨after, hfields, hafter⟩, hprotocol, hpayload, herror⟩ := returns_finish
    parentLayer.payload ⟨f.payloadLength, (first f.upper f.chain).toNat, f.src, f.dst⟩
    ⟨f.upper.toNat, data, 40 + (encode f.upper f.chain).length⟩ _
  have hbody : Returns (body parentLayer.payload) (start parentLayer) ⟨⟩ r :=
    hread.bind (hcheck.bind (hloop.bind hfinish))
  have hlayer : (analyze parentLayer).layer = r.layer := layer_run hbody
  obtain ⟨before, hbefore, hfields'⟩ := hfilled.fields
  rw [hlayer]
  refine ⟨⟨before, after, hbefore, hafter, ?_⟩, hprotocol, ?_, herror.trans hfilled.error⟩
  · rw [hfields, hfields']
    rfl
  · rw [hpayload, Option.map_some, hheader.rest.right.bytes_slice_rest h]
    rw [f.length_encode, Nat.add_assoc]

/-! ### Chains that are followed -/

/-- The layer has the extension headers of a frame, its protocol and its data. -/
structure Follows (l : ScriptLayer) (payload : Payload) (f : IPv6Frame) : Prop where
  fields : ∃ before after, before.length = 8 ∧ after.length = 2 ∧
    l.fields = before ++ fields payload f.upper 40 f.chain ++ after
  covers : (IPv6Extension.fields payload f.upper 40 f.chain).map (fun g => g.data.bytes) =
    headers f.upper f.chain
  protocol : l.attrs "protocol" = some (protocolEnum f.upper.toNat)
  payload : l.payload.map Buffer.bytes = some f.data
  error : l.error = none

/-- A chain of extension headers is followed exactly if there is no padding, and the loop ends for
every payload. -/
theorem follows_iff (parentLayer : ParentLayer) :
    (∀ (f : IPv6Frame) (padding : List UInt8), parentLayer.payload.bytes = f.encode ++ padding →
      (Follows (analyze parentLayer).layer parentLayer.payload f ↔ padding = [])) ∧
    ∀ position a t, ¬ Returns (readExtensions parentLayer.payload (parentLayer.payload.length + 1)
      position) a none t := by
  constructor
  · intro f padding h
    obtain ⟨hfields, hprotocol, hpayload, herror⟩ := layer_frame h
    have hcovers := bytes_fields (hasHeader h).rest
    constructor
    · intro hfollows
      have hdata := hfollows.payload
      rwa [hpayload, Option.some.injEq, List.append_right_eq_self] at hdata
    · rintro rfl
      rw [List.append_nil] at hpayload
      exact ⟨hfields, hcovers, hprotocol, hpayload, herror⟩
  · intro position a t
    exact readExtensions_ends (by omega)

end Frame

/-! ### Samples -/

/-- Hop-by-Hop Options of padding, before UDP. -/
def sampleFrame : IPv6Frame where
  first := [0x60, 0, 0, 0]
  hopLimit := 64
  src := ⟨[0xfe, 0x80, 0, 0, 0, 0, 0, 0, 0, 0, 0, 0, 0, 0, 0, 1], rfl⟩
  dst := ⟨[0xfe, 0x80, 0, 0, 0, 0, 0, 0, 0, 0, 0, 0, 0, 0, 0, 2], rfl⟩
  chain := [⟨.hopByHop, [1, 4, 0, 0, 0, 0], by decide, by decide⟩]
  upper := 17
  data := [0x75, 0x64, 0x70]
  length_first := rfl
  upper_ne := by decide
  length_pos := by decide
  length_lt := by decide

/-- The frame with padding after it, in Ethernet. -/
def padded (padding : List UInt8) (h : (sampleFrame.encode ++ padding).length < 2 ^ 63) :
    ParentLayer where
  ns := "::Ethernet::<IPv6>"
  payload := Hex.ofVec (sampleFrame.encode ++ padding) h
  fields := []
  attrs := fun _ => none
  layers := fun _ => none

theorem follows_iff_sample :
    (Follows (analyze (padded [] (by decide))).layer (padded [] (by decide)).payload sampleFrame ↔
      ([] : List UInt8) = []) ∧
    ∀ position a t, ¬ Returns (readExtensions (padded [] (by decide)).payload
      ((padded [] (by decide)).payload.length + 1) position) a none t :=
  ⟨(follows_iff (padded [] (by decide))).1 sampleFrame [] (Hex.bytes_ofVec _),
    (follows_iff (padded [] (by decide))).2⟩

/-- Padding is in the payload. -/
theorem padding_kept :
    (analyze (padded [0, 0] (by decide))).layer.payload.map Buffer.bytes =
        some [0x75, 0x64, 0x70, 0, 0] ∧
      ¬ Follows (analyze (padded [0, 0] (by decide))).layer (padded [0, 0] (by decide)).payload
        sampleFrame := by
  constructor
  · rfl
  · intro h
    have hpayload : some [0x75, 0x64, 0x70, 0, 0] = some sampleFrame.data := h.payload
    cases hpayload

end IPv6Dissector

end Dripcap
