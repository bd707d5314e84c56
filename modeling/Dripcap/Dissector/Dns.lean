import Dripcap.Dissector.Analysis

/-!
# The DNS dissector

`DNSDissector` of `dns.es`. All of the header is read before the first field is pushed, and the
layer is attached inside the `try` block.
-/

namespace Dripcap

open Outcome Dissect

namespace DNSDissector

/-- `if (p) throw new Error(text);` -/
def refuse (p : Prop) [Decidable p] (text : String) : Dissect PUnit :=
  if p then throw (.thrown text) else pure ⟨⟩

/-- What the dissector has read before the fields. -/
structure Header where
  id : ℕ
  flags0 : ℕ
  flags1 : ℕ
  opcode : Enum
  rcode : Enum
  qdCount : ℕ
  anCount : ℕ
  nsCount : ℕ
  arCount : ℕ

/-- The first 12 bytes. -/
def readHeader (payload : Payload) : Dissect Header := do
  assertLength payload 12
  let id ← readUInt16BE payload 0
  let flags0 ← readUInt8 payload 2
  let flags1 ← readUInt8 payload 3
  let opcode := Enum.ofClass .dnsOperation ((flags0 >>> 3) &&& 0b00001111 : ℕ)
  refuse (opcode.known = false) "wrong DNS opcode"
  refuse (flags1 &&& 0b01110000 ≠ 0) "reserved bits must be zero"
  let rcode := Enum.ofClass .dnsRecord (flags1 &&& 0b00001111 : ℕ)
  refuse (rcode.known = false) "wrong DNS rcode"
  let qdCount ← readUInt16BE payload 4
  let anCount ← readUInt16BE payload 6
  let nsCount ← readUInt16BE payload 8
  let arCount ← readUInt16BE payload 10
  pure ⟨id, flags0, flags1, opcode, rcode, qdCount, anCount, nsCount, arCount⟩

/-- The fields of the flags. -/
def pushFlags (payload : Payload) (header : Header) : Dissect PUnit := do
  pushAttr "Query/Response Flag" "qr" (payload.slice 2 3) (pure (.boolean (header.flags0 >>> 7 ≠ 0)))
  pushAttr "Operation Code" "opcode" (payload.slice 2 3) (pure (.instance (.enum header.opcode)))
  pushAttr "Authoritative Answer Flag" "aa" (payload.slice 2 3)
    (pure (.boolean ((header.flags0 >>> 2) &&& 1 ≠ 0)))
  pushAttr "Truncation Flag" "tc" (payload.slice 2 3)
    (pure (.boolean ((header.flags0 >>> 1) &&& 1 ≠ 0)))
  pushAttr "Recursion Desired" "rd" (payload.slice 2 3)
    (pure (.boolean ((header.flags0 >>> 0) &&& 1 ≠ 0)))
  pushAttr "Recursion Available" "ra" (payload.slice 3 4)
    (pure (.boolean (header.flags1 >>> 7 ≠ 0)))
  pushAttr "Response Code" "rcode" (payload.slice 3 4) (pure (.instance (.enum header.rcode)))

/-- The fields of the counts. -/
def pushCounts (payload : Payload) (header : Header) : Dissect PUnit := do
  pushAttr "Question Count" "qdCount" (payload.slice 4 6) (pure (.number header.qdCount))
  pushAttr "Answer Record Count" "anCount" (payload.slice 6 8) (pure (.number header.anCount))
  pushAttr "Authority Record Count" "nsCount" (payload.slice 8 10) (pure (.number header.nsCount))
  pushAttr "Additional Record Count" "arCount" (payload.slice 10 12) (pure (.number header.arCount))

def body (payload : Payload) : Dissect PUnit := do
  let header ← readHeader payload
  pushAttr "ID" "id" (payload.slice 0 2) (pure (.number header.id))
  pushFlags payload header
  pushCounts payload header
  pushPayload (payload.slice 12 payload.length)
  setSummary ("[" ++ header.opcode.name ++ "] [" ++ header.rcode.name ++ "] qd:" ++
    toString header.qdCount ++ " an:" ++ toString header.anCount ++ " ns:" ++
    toString header.nsCount ++ " ar:" ++ toString header.arCount)
  attach

/-- `new Layer()` with its name and namespace. -/
def start (parentLayer : ParentLayer) : Analysis where
  layer := { name := "DNS", ns := parentLayer.ns ++ "::DNS" }
  parentLayer := parentLayer

/-- `analyze`: after an exception the layer is not attached. -/
def analyze (parentLayer : ParentLayer) : Analysis :=
  (outcome (catchError (body parentLayer.payload)) (start parentLayer)).2

end DNSDissector

end Dripcap
