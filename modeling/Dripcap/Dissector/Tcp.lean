import Dripcap.Builtin.HostText
import Dripcap.Dissector.Analysis

/-!
# The TCP dissector

`TCPDissector` of `tcp.es`. The options are parsed by a loop, which is given a number of rounds
here.
-/

namespace Dripcap

open Outcome Dissect

namespace Dissect

/-- The fields and attributes of the two ports, in TCP and in UDP. -/
def ports (parentLayer : ParentLayer) : Dissect (Instance × Instance) := do
  let payload := parentLayer.payload
  assertLength payload 2
  let source ← readUInt16BE payload 0
  push { name := "Source port", value := some (.number source), data := payload.slice 0 2 }
  let src ← newHost (parentLayer.attrs "src") source
  setAttr "src" (.instance src)
  assertLength payload 4
  let destination ← readUInt16BE payload 2
  push { name := "Destination port", value := some (.number destination), data := payload.slice 2 4 }
  let dst ← newHost (parentLayer.attrs "dst") destination
  setAttr "dst" (.instance dst)
  pure (src, dst)

end Dissect

namespace TCPDissector

/-! ### The header -/

/-- A field of one of the flags. -/
def flagField (flags : Flags) (name : String) (data : Payload) : Field :=
  { name := name, value := some (.boolean (flags.get name)), data := data }

def flagFields (flags : Flags) (payload : Payload) : List Field :=
  [flagField flags "NS" (payload.slice 12 13), flagField flags "CWR" (payload.slice 13 14),
   flagField flags "ECE" (payload.slice 13 14), flagField flags "URG" (payload.slice 13 14),
   flagField flags "ACK" (payload.slice 13 14), flagField flags "PSH" (payload.slice 13 14),
   flagField flags "RST" (payload.slice 13 14), flagField flags "SYN" (payload.slice 13 14),
   flagField flags "FIN" (payload.slice 13 14)]

/-- The flags and their fields. -/
def readFlags (payload : Payload) : Dissect Flags := do
  assertLength payload 14
  let low ← readUInt8 payload 13
  let high ← readUInt8 payload 12
  let flags := Flags.ofClass .tcp (low ||| ((high &&& 0x1) <<< 8) : ℕ)
  push { name := "Flags", attr := some "flags", data := payload.slice 12 14,
         fields := flagFields flags payload }
  setAttr "flags" (.instance (.flags flags))
  pure flags

/-- What the dissector has read before the options. -/
structure Header where
  src : Instance
  dst : Instance
  seq : ℕ
  ack : ℕ
  dataOffset : ℕ
  flags : Flags

/-- The first 20 bytes. -/
def readHeader (parentLayer : ParentLayer) : Dissect Header := do
  let payload := parentLayer.payload
  let hosts ← ports parentLayer
  assertLength payload 8
  let seq ← readUInt32BE payload 4
  pushAttr "Sequence number" "seq" (payload.slice 4 8) (pure (.number seq))
  assertLength payload 12
  let ack ← readUInt32BE payload 8
  pushAttr "Acknowledgment number" "ack" (payload.slice 8 12) (pure (.number ack))
  assertLength payload 13
  let byte ← readUInt8 payload 12
  let dataOffset := byte >>> 4
  pushAttr "Data offset" "dataOffset" (payload.slice 12 13) (pure (.number dataOffset))
  let flags ← readFlags payload
  assertLength payload 16
  pushAttr "Window size" "window" (payload.slice 14 16) (.number <$> readUInt16BE payload 14)
  assertLength payload 18
  pushAttr "Checksum" "checksum" (payload.slice 16 18) (.number <$> readUInt16BE payload 16)
  assertLength payload 20
  pushAttr "Urgent pointer" "urgent" (payload.slice 18 20) (.number <$> readUInt16BE payload 18)
  pure ⟨hosts.1, hosts.2, seq, ack, dataOffset, flags⟩

/-! ### The options -/

/-- `checkLength(payload, offset, len)` -/
def checkLength (payload : Payload) (offset len : ℕ) : Except ReadError PUnit :=
  if offset + len ≤ payload.length then do
    let byte ← (payload.get (offset + 1)).mapError .thrown
    if byte.toNat = len then pure ⟨⟩ else throw (.thrown "invalid option")
  else throw (.thrown "invalid option")

/-- `checkLength(optionData.length, offset, len)`: a number has no `length`. -/
def checkLengthOfNumber : Except ReadError PUnit := throw (.thrown "invalid option")

/-- One round of the loop: the next offset, what is pushed to `optionItems`, and the fields. -/
def readOption (payload optionData : Payload) (offset : ℕ) :
    Except ReadError (ℕ × List String × List Field) := do
  let kind ← (optionData.get offset).mapError .thrown
  if kind = 0 then pure (optionData.length, [], [])
  else if kind = 1 then
    pure (offset + 1, [],
      [{ name := "NOP", value := some (.string ""), data := payload.slice offset (offset + 1) }])
  else if kind = 2 then do
    checkLength optionData offset 4
    let value ← payload.uint16 (offset + 2)
    pure (offset + 4, ["Maximum segment size"],
      [{ name := "Maximum segment size", value := some (.number value),
         data := payload.slice offset (offset + 4) }])
  else if kind = 3 then do
    checkLength optionData offset 3
    let value ← payload.uint8 (offset + 2)
    pure (offset + 3, ["Window scale"],
      [{ name := "Window scale", value := some (.number value),
         data := payload.slice offset (offset + 3) }])
  else if kind = 4 then do
    checkLength optionData offset 2
    pure (offset + 2, ["Selective ACK permitted"],
      [{ name := "Selective ACK permitted", value := some (.string ""),
         data := payload.slice offset (offset + 2) }])
  else if kind = 5 then do
    checkLength optionData offset 2
    let length ← payload.uint8 (offset + 1)
    checkLengthOfNumber
    pure (offset + length, ["Selective ACK"],
      [{ name := "Selective ACK",
         value := some (.buffer (payload.slice (offset + 2) (offset + length)).bytes),
         data := payload.slice offset (offset + length) }])
  else if kind = 8 then do
    checkLength optionData offset 10
    let mt ← payload.uint32 (offset + 2)
    -- the same bytes once more
    let et ← payload.uint32 (offset + 2)
    pure (offset + 10, ["Timestamps"],
      [{ name := "Timestamps", value := some (.string (toString mt ++ " - " ++ toString et)),
         data := payload.slice offset (offset + 10),
         fields :=
          [{ name := "My timestamp", value := some (.number mt),
             data := payload.slice (offset + 2) (offset + 6) },
           { name := "Echo reply timestamp", value := some (.number et),
             data := payload.slice (offset + 6) (offset + 10) }] }])
  else throw (.thrown "unknown option")

/-- The loop, for a number of rounds: `none` if there are more. -/
def readOptions (payload optionData : Payload) :
    ℕ → ℕ → List String → List Field → Option (Except ReadError (List String × List Field))
  | 0, _, _, _ => none
  | rounds + 1, offset, items, fields =>
    if optionData.length > offset then
      match readOption payload optionData offset with
      | .ok r => readOptions payload optionData rounds r.1 (items ++ r.2.1) (fields ++ r.2.2)
      | .error e => some (.error e)
    else some (.ok (items, fields))

/-! ### The method -/

/-- The fields `Options` and `Payload`, and the stream. -/
def finish (parentLayer : ParentLayer) (header : Header) (options : List String × List Field) :
    Dissect PUnit := do
  let payload := parentLayer.payload
  let length := header.dataOffset * 4
  push { name := "Options", value := some (.string (",".intercalate options.1)),
         data := payload.slice 20 length, fields := options.2 }
  let data := payload.slice length payload.length
  pushPayload data
  let flag := if header.flags.get "FIN" && header.flags.get "ACK" then .end else .noop
  pushStream { name := "TCP Stream", ns := parentLayer.ns,
               id := header.src.toString ++ "/" ++ header.dst.toString, data := data, flag := flag }
  setSummary (header.src.toString ++ " -> " ++ header.dst.toString ++ " seq:" ++
    toString header.seq ++ " ack:" ++ toString header.ack)

/-- What follows the header. As many rounds as there are bytes, and one more, are enough for the
options. -/
def readBody (parentLayer : ParentLayer) (header : Header) : Dissect PUnit := do
  let payload := parentLayer.payload
  assertLength payload (header.dataOffset * 4)
  match readOptions payload (payload.slice 0 (header.dataOffset * 4)) (payload.length + 1) 20 [] [] with
  | none => pure ⟨⟩
  | some result => do
    let options ← MonadExcept.ofExcept result
    finish parentLayer header options

def body (parentLayer : ParentLayer) : Dissect PUnit := do
  let header ← readHeader parentLayer
  readBody parentLayer header

/-- `new Layer()` with its name and namespace. -/
def start (parentLayer : ParentLayer) : Analysis where
  layer := { name := "TCP", ns := replaceIn parentLayer.ns "<TCP>" "TCP" }
  parentLayer := parentLayer

/-- `analyze` -/
def analyze (parentLayer : ParentLayer) : Analysis := run (body parentLayer) (start parentLayer)

end TCPDissector

/-! ### Hosts -/

/-- An address as an attribute. -/
def NetAddress.attr : NetAddress → Attr
  | .ipv4 a => .instance (.ipv4Address a)
  | .ipv6 a => .instance (.ipv6Address a)

namespace Dissect

lemma returns_newHost (x : NetAddress) {port : ℕ} (h : port ≤ 65535) (a : Analysis) :
    Returns (newHost (some x.attr) port) a (x.host port h) a := by
  cases x with
  | ipv4 x =>
    apply returns_construct
    rw [IPv4Host.new_natCast x h]
    rfl
  | ipv6 x =>
    apply returns_construct
    rw [IPv6Host.new_natCast x h]
    rfl

/-- A number of two bytes. -/
lemma value_le (p : Payload) {i : ℕ} (h : i + 2 ≤ p.length) :
    BigEndian.value (p.slice i (i + 2)).bytes ≤ 65535 := by
  have hlength : (p.slice i (i + 2)).bytes.length = 2 := by
    rw [Buffer.length_bytes, p.length_slice (by omega) h]
    omega
  have hlt := BigEndian.value_lt (p.slice i (i + 2)).bytes
  rw [hlength] at hlt
  omega

/-- The layer of the network has its addresses. -/
structure HasAddresses (parentLayer : ParentLayer) (x y : NetAddress) : Prop where
  src : parentLayer.attrs "src" = some x.attr
  dst : parentLayer.attrs "dst" = some y.attr

lemma gives_newHost (x : NetAddress) {port : ℕ} (h : port ≤ 65535) :
    Gives (newHost (some x.attr) port) (x.host port h) := gives_of_returns (returns_newHost x h)

lemma gives_ports {parentLayer : ParentLayer} {x y : NetAddress} (h : HasAddresses parentLayer x y)
    (hlen : 4 ≤ parentLayer.payload.length) :
    Gives (ports parentLayer)
      (x.host _ (value_le parentLayer.payload (i := 0) (by omega)),
        y.host _ (value_le parentLayer.payload (i := 2) hlen)) := by
  unfold ports
  rw [h.src, h.dst]
  refine (gives_assertLength (by omega)).bind ?_
  refine (gives_readUInt16BE (by omega)).bind ?_
  refine (gives_push _).bind ?_
  refine (gives_newHost x (value_le _ (by omega))).bind ?_
  refine (gives_setAttr _ _).bind ?_
  refine (gives_assertLength hlen).bind ?_
  refine (gives_readUInt16BE hlen).bind ?_
  refine (gives_push _).bind ?_
  refine (gives_newHost y (value_le _ hlen)).bind ?_
  refine (gives_setAttr _ _).bind ?_
  exact gives_pure _

end Dissect

namespace TCPDissector

variable {parentLayer : ParentLayer} {x y : NetAddress}

lemma gives_readFlags {payload : Payload} (hlen : 14 ≤ payload.length) :
    Gives (readFlags payload)
      (Flags.ofClass .tcp (payload.byte 13 ||| ((payload.byte 12 &&& 0x1) <<< 8) : ℕ)) := by
  unfold readFlags
  refine (gives_assertLength hlen).bind ?_
  refine (gives_readUInt8 (by omega)).bind ?_
  refine (gives_readUInt8 (by omega)).bind ?_
  refine (gives_push _).bind ?_
  refine (gives_setAttr _ _).bind ?_
  exact gives_pure _

lemma onlyGrows_ports (parentLayer : ParentLayer) : OnlyGrows (ports parentLayer) := by
  unfold ports
  refine (onlyGrows_assertLength _ _).bind fun _ => ?_
  refine (onlyGrows_ofExcept _).bind fun _ => ?_
  refine (onlyGrows_push _).bind fun _ => ?_
  refine (onlyGrows_newHost _ _).bind fun _ => ?_
  refine (onlyGrows_setAttr _ _).bind fun _ => ?_
  refine (onlyGrows_assertLength _ _).bind fun _ => ?_
  refine (onlyGrows_ofExcept _).bind fun _ => ?_
  refine (onlyGrows_push _).bind fun _ => ?_
  refine (onlyGrows_newHost _ _).bind fun _ => ?_
  refine (onlyGrows_setAttr _ _).bind fun _ => ?_
  exact onlyGrows_pure _

lemma onlyGrows_readFlags (payload : Payload) : OnlyGrows (readFlags payload) := by
  unfold readFlags
  refine (onlyGrows_assertLength _ _).bind fun _ => ?_
  refine (onlyGrows_ofExcept _).bind fun _ => ?_
  refine (onlyGrows_ofExcept _).bind fun _ => ?_
  refine (onlyGrows_push _).bind fun _ => ?_
  refine (onlyGrows_setAttr _ _).bind fun _ => ?_
  exact onlyGrows_pure _

lemma onlyGrows_readHeader (parentLayer : ParentLayer) : OnlyGrows (readHeader parentLayer) := by
  unfold readHeader
  refine (onlyGrows_ports _).bind fun _ => ?_
  refine (onlyGrows_assertLength _ _).bind fun _ => ?_
  refine (onlyGrows_ofExcept _).bind fun _ => ?_
  refine (onlyGrows_pushAttr (onlyGrows_pure _) _ _ _).bind fun _ => ?_
  refine (onlyGrows_assertLength _ _).bind fun _ => ?_
  refine (onlyGrows_ofExcept _).bind fun _ => ?_
  refine (onlyGrows_pushAttr (onlyGrows_pure _) _ _ _).bind fun _ => ?_
  refine (onlyGrows_assertLength _ _).bind fun _ => ?_
  refine (onlyGrows_ofExcept _).bind fun _ => ?_
  refine (onlyGrows_pushAttr (onlyGrows_pure _) _ _ _).bind fun _ => ?_
  refine (onlyGrows_readFlags _).bind fun _ => ?_
  refine (onlyGrows_assertLength _ _).bind fun _ => ?_
  refine (onlyGrows_pushAttr (onlyGrows_map (onlyGrows_ofExcept _) _) _ _ _).bind fun _ => ?_
  refine (onlyGrows_assertLength _ _).bind fun _ => ?_
  refine (onlyGrows_pushAttr (onlyGrows_map (onlyGrows_ofExcept _) _) _ _ _).bind fun _ => ?_
  refine (onlyGrows_assertLength _ _).bind fun _ => ?_
  refine (onlyGrows_pushAttr (onlyGrows_map (onlyGrows_ofExcept _) _) _ _ _).bind fun _ => ?_
  exact onlyGrows_pure _

/-- The header is read of 20 bytes at least. -/
lemma le_of_returns_readHeader {a t : Analysis} {header : Header}
    (h : Returns (readHeader parentLayer) a header t) : 20 ≤ parentLayer.payload.length := by
  unfold readHeader at h
  iterate 15 obtain ⟨_, _, -, h⟩ := returns_bind.mp h
  obtain ⟨_, _, h20, -⟩ := returns_bind.mp h
  exact le_of_returns_assertLength h20

/-- What is read of a header between two addresses. -/
def headerOf (payload : Payload) (x y : NetAddress) (hlen : 20 ≤ payload.length) : Header where
  src := x.host _ (value_le payload (i := 0) (by omega))
  dst := y.host _ (value_le payload (i := 2) (by omega))
  seq := BigEndian.value (payload.slice 4 8).bytes
  ack := BigEndian.value (payload.slice 8 12).bytes
  dataOffset := payload.byte 12 >>> 4
  flags := Flags.ofClass .tcp (payload.byte 13 ||| ((payload.byte 12 &&& 0x1) <<< 8) : ℕ)

lemma gives_readHeader (h : HasAddresses parentLayer x y)
    (hlen : 20 ≤ parentLayer.payload.length) :
    Gives (readHeader parentLayer) (headerOf parentLayer.payload x y hlen) := by
  unfold readHeader
  refine (gives_ports h (by omega)).bind ?_
  refine (gives_assertLength (by omega)).bind ?_
  refine (gives_readUInt32BE (by omega)).bind ?_
  refine (gives_pushAttr (fun _ => rfl) _ _ _).bind ?_
  refine (gives_assertLength (by omega)).bind ?_
  refine (gives_readUInt32BE (by omega)).bind ?_
  refine (gives_pushAttr (fun _ => rfl) _ _ _).bind ?_
  refine (gives_assertLength (by omega)).bind ?_
  refine (gives_readUInt8 (by omega)).bind ?_
  refine (gives_pushAttr (fun _ => rfl) _ _ _).bind ?_
  refine (gives_readFlags (by omega)).bind ?_
  refine (gives_assertLength (by omega)).bind ?_
  refine (gives_pushAttr (returns_map (returns_readUInt16BE (by omega)) _) _ _ _).bind ?_
  refine (gives_assertLength (by omega)).bind ?_
  refine (gives_pushAttr (returns_map (returns_readUInt16BE (by omega)) _) _ _ _).bind ?_
  refine (gives_assertLength hlen).bind ?_
  refine (gives_pushAttr (returns_map (returns_readUInt16BE (by omega)) _) _ _ _).bind ?_
  exact gives_pure _

end TCPDissector

end Dripcap
